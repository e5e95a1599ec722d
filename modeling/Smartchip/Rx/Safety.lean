import Smartchip.Link.RoundTrip
import Smartchip.Rx.Reads

/-!
# Short frames

The receive path checks that a packet is longer than its descriptor and the driver
information, and nothing of the frame behind them.  What it reads is inside the packet
when the frame is as long as its own fields say, and only then.
-/

namespace Smartchip.Rx

open Smartchip.Foundation Smartchip.Frame Smartchip.Link Smartchip.Sec

/-! ## What a frame has to hold -/

/-- The algorithms that are undone in software. -/
def Ciphered (algo : EncryptAlgo) : Prop := algo = .wep40 ∨ algo = .wep104 ∨ algo = .tkip

/-- The third address is taken over, or compared with the BSSID of an ad hoc network. -/
def Addr3Used (nic : RxNic) (wdn : RxWdn) (pkt : RxPkt) : Prop :=
  match nic.workMode with
  | .adhoc => True
  | .other => False
  | _ => (rxCheckAddrs nic wdn pkt).isSome = true

/-- A frame with a body holds an LLC header, and the type behind it when it is a SNAP
header.  In a body that was decrypted six bytes are never one: its checksum would have
to be in them. -/
def LlcFit (algo : EncryptAlgo) (pkt : RxPkt) : Prop :=
  let payloadOfs := hdrLenOf pkt + rxIvLen algo
  let head := pkt.mem.read (pkt.pdata + payloadOfs) snapHdrSize
  pkt.len ≠ hdrLenOf pkt + rxIcvLen algo →
    payloadOfs + 6 ≤ pkt.len ∧
      (¬ Ciphered algo → head = wlRfc1042Header ∨
        head = wlBridgeTunnelHeader ∧ payloadOfs + 6 + rxIcvLen algo ≤ pkt.len →
          payloadOfs + 8 ≤ pkt.len)

/-- A data frame that passed the checks of its addresses and of its number. -/
structure BodyFit (nic : RxNic) (wdn : RxWdn) (baEnable : Bool) (pkt : RxPkt) : Prop where
  qos : pkt.info.qosFlag = true → qosOffset pkt + 2 ≤ pkt.len
  cipher : getHdrProtected pkt.mem pkt.pdata = true → Ciphered (algoOf nic wdn pkt) →
    hdrLenOf pkt + rxIvLen (algoOf nic wdn pkt) + rxIcvLen (algoOf nic wdn pkt) ≤ pkt.len
  llc : (rxProcessDataFrame nic wdn pkt).isSome = true →
    (baEnable = true ∨ (rxParseQosCtrlField pkt).info.amsdu = false) →
      LlcFit (algoOf nic wdn pkt) pkt

structure DataFit (env : RxEnv) (rxd : RxDesc) (pwdn : Nat) (pkt : RxPkt) : Prop where
  addr3 : Addr3Used env.nic (env.nic.wdn pwdn) pkt → 22 ≤ pkt.len
  body : ∀ checked wdn, rxCheckAddrs env.nic (env.nic.wdn pwdn) pkt = some checked →
    rxCheckSeqCtrl (env.nic.wdn pwdn) rxd checked = some wdn →
      BodyFit { env.nic with wdn := Function.update env.nic.wdn pwdn wdn } wdn env.baEnable
        checked

/-- Only a station looks at the addresses of a management frame here. -/
def MgmtFit (nic : RxNic) (lenField : Nat) (pkt : RxPkt) : Prop :=
  let pra := getAddr1 pkt.mem pkt.pdata
  nic.workMode = .infra ∨ nic.workMode = .adhoc → lenField ≤ 2304 + 28 →
    10 ≤ pkt.len ∧
      (isBcastAddr pra = true ∨ pra = nic.localAddr.toList → 16 ≤ pkt.len)

structure FrameFit (build : RxBuild) (env : RxEnv) (pkt : RxPkt) : Prop where
  control : 2 ≤ pkt.len
  transmitter : env.stations = true → 16 ≤ pkt.len
  destination : env.lps = true →
    getDa pkt.mem pkt.pdata + bcstLooks pkt.mem (getDa pkt.mem pkt.pdata) ≤
      pkt.pdata + pkt.len
  data : getHdrType pkt.mem pkt.pdata = 0x0008 → ∀ pwdn, station env pkt = some pwdn →
    DataFit env (rxdOf build pkt.mem) pwdn pkt
  mgmt : getHdrType pkt.mem pkt.pdata = 0 →
    MgmtFit env.nic (rxdLenField build pkt.mem) pkt

structure MpduFit (build : RxBuild) (env : RxEnv) (mem : Mem) (pktLen : Nat) : Prop where
  type : build.richv200 = true → rxdBits mem 0 0 2 = wfPktTypeFrame
  frame : env.alloc = true → FrameFit build env (framePkt build mem pktLen)

/-! ## The header -/

section Header

variable {nic : RxNic} {wdn : RxWdn} {pkt : RxPkt}

theorem addrTouches_within (known : 16 ≤ pkt.len) :
    Within (pkt.pdata + pkt.len) (addrTouches nic wdn pkt) ↔
      (Addr3Used nic wdn pkt → 22 ≤ pkt.len) := by
  have control : 2 ≤ pkt.len := by omega
  have first : pkt.pdata + 4 + 6 ≤ pkt.pdata + pkt.len := by omega
  have second : pkt.pdata + 10 + 6 ≤ pkt.pdata + pkt.len := by omega
  have third : pkt.pdata + 16 + 6 ≤ pkt.pdata + pkt.len ↔ 22 ≤ pkt.len := by omega
  cases mode : nic.workMode with
  | other => simp [addrTouches, Addr3Used, mode]
  | adhoc =>
      simp only [addrTouches, Addr3Used, mode, sta2staTouches, addr1, addr2, addr3]
      split_ifs <;> simp [first, second, third]
  | infra =>
      simp only [addrTouches, Addr3Used, mode, rxCheckAddrs, rxDataPktAp2sta, ap2staTouches,
        frameControl, addr1, addr2, addr3]
      generalize isBcastAddr (getAddr1 pkt.mem pkt.pdata) = bcast
      by_cases ds : getHdrToFromDs pkt.mem pkt.pdata = 0x0200 <;>
        by_cases bssid : getAddr2 pkt.mem pkt.pdata = wdn.bssid.toList <;>
        by_cases da : getAddr1 pkt.mem pkt.pdata = nic.localAddr.toList <;>
        cases bcast <;> simp [ds, bssid, da, control, first, second, third]
  | master =>
      simp only [addrTouches, Addr3Used, mode, rxCheckAddrs, rxDataPktSta2ap, sta2apTouches,
        frameControl, addr1, addr2, addr3]
      by_cases ds : getHdrToFromDs pkt.mem pkt.pdata = 0x0100 <;>
        by_cases bssid : getAddr1 pkt.mem pkt.pdata = nic.localAddr.toList <;>
        simp [ds, bssid, control, first, second, third]

theorem mgmtTouches_within (env : RxEnv) (lenField : Nat) (control : 2 ≤ pkt.len) :
    Within (pkt.pdata + pkt.len) (mgmtTouches env lenField pkt) ↔
      MgmtFit env.nic lenField pkt := by
  have first : pkt.pdata + 4 + 6 ≤ pkt.pdata + pkt.len ↔ 10 ≤ pkt.len := by omega
  have second : pkt.pdata + 10 + 6 ≤ pkt.pdata + pkt.len ↔ 16 ≤ pkt.len := by omega
  have done : Within (pkt.pdata + pkt.len)
      ((if env.mgmtDone = true then [frameControl pkt] else []) ++ [.free true]) := by
    simp [within_ite, frameControl, control]
  simp only [mgmtTouches, MgmtFit]
  cases mode : env.nic.workMode with
  | infra | adhoc =>
      generalize isBcastAddr (getAddr1 pkt.mem pkt.pdata) = bcast
      by_cases long : 2304 + 28 < lenField
      · simp [long, Nat.not_le.mpr long]
      · by_cases own : getAddr1 pkt.mem pkt.pdata = env.nic.localAddr.toList <;> cases bcast <;>
          simp [long, Nat.not_lt.mp long, own, addr1, addr2, first, second, done]
  | _ => simp [done]

end Header

/-! ## Decryption -/

section Cipher

variable {nic : RxNic} {pkt : RxPkt}

def cipherLen (pkt : RxPkt) : Nat :=
  pkt.info.wlanHdrLen + pkt.info.ivLen + pkt.info.icvLen

theorem lengthTouches_within {n : Nat} :
    Within n (lengthTouches pkt) ↔ cipherLen pkt ≤ pkt.len := by
  unfold lengthTouches cipherLen
  split_ifs with short
  · simpa using short
  · simpa using short

/-- Where nothing wraps, the length is that of the payload. -/
theorem payloadLen_toNat (fits : cipherLen pkt ≤ pkt.len) (small : pkt.len < 2 ^ 32) :
    (payloadLen pkt).toNat = pkt.len - cipherLen pkt := by
  unfold cipherLen at fits ⊢
  rw [payloadLen, UInt32.toNat_sub_of_le, UInt32.toNat_ofNat_of_lt' small,
    UInt32.toNat_ofNat_of_lt' (show _ < UInt32.size by unfold UInt32.size; omega)]
  rw [UInt32.le_iff_toNat_le, UInt32.toNat_ofNat_of_lt' small,
    UInt32.toNat_ofNat_of_lt' (show _ < UInt32.size by unfold UInt32.size; omega)]
  exact fits

theorem bodyTouches_within (fits : cipherLen pkt ≤ pkt.len) (small : pkt.len < 2 ^ 32) :
    Within (pkt.pdata + pkt.len) (bodyTouches pkt) := by
  have length := payloadLen_toNat fits small
  unfold cipherLen at fits length
  have ivLen : (UInt32.ofNat (pkt.info.wlanHdrLen + pkt.info.ivLen)).toNat =
      pkt.info.wlanHdrLen + pkt.info.ivLen :=
    UInt32.toNat_ofNat_of_lt' (show _ < UInt32.size by unfold UInt32.size; omega)
  have icvLen : (UInt32.ofNat pkt.info.icvLen).toNat = pkt.info.icvLen :=
    UInt32.toNat_ofNat_of_lt' (show _ < UInt32.size by unfold UInt32.size; omega)
  have whole : (payloadLen pkt + UInt32.ofNat pkt.info.icvLen).toNat =
      pkt.len - (pkt.info.wlanHdrLen + pkt.info.ivLen) := by
    rw [UInt32.toNat_add, length, icvLen]
    omega
  have behind : (UInt32.ofNat (pkt.info.wlanHdrLen + pkt.info.ivLen) + payloadLen pkt).toNat =
      pkt.len - pkt.info.icvLen := by
    rw [UInt32.toNat_add, length, ivLen]
    omega
  simp only [bodyTouches, within_cons, ok_read, within_nil, whole, length, behind, and_true]
  clear length ivLen icvLen whole behind
  omega

theorem wepTouches_within (iv : pkt.info.ivLen = 4) (small : pkt.len < 2 ^ 32) :
    Within (pkt.pdata + pkt.len) (wepTouches pkt) ↔ cipherLen pkt ≤ pkt.len := by
  simp only [wepTouches, within_append, lengthTouches_within, within_cons, ok_read, within_nil,
    and_true]
  constructor
  · intro inside
    exact inside.1.1
  · intro fits
    have bytes := fits
    unfold cipherLen at bytes
    exact ⟨⟨fits, by omega⟩, bodyTouches_within fits small⟩

theorem tkipTouches_within (iv : pkt.info.ivLen = 8) (small : pkt.len < 2 ^ 32) :
    Within (pkt.pdata + pkt.len) (tkipTouches nic pkt) ↔ cipherLen pkt ≤ pkt.len := by
  simp only [tkipTouches, within_append, lengthTouches_within, within_ite, within_cons, ok_read,
    within_nil]
  constructor
  · intro inside
    exact inside.1
  · intro fits
    have bytes := fits
    unfold cipherLen at bytes
    exact ⟨fits, fun _ => trivial, fun _ => ⟨⟨by omega, trivial⟩, bodyTouches_within fits small⟩⟩

theorem decryptTouches_within (control : 2 ≤ pkt.len) (small : pkt.len < 2 ^ 32)
    (iv : pkt.info.ivLen = rxIvLen pkt.info.encryptAlgo) :
    Within (pkt.pdata + pkt.len) (decryptTouches nic pkt) ↔
      (Ciphered pkt.info.encryptAlgo → cipherLen pkt ≤ pkt.len) := by
  simp only [decryptTouches, within_cons, frameControl, ok_read, Nat.add_le_add_iff_left,
    control, true_and]
  cases algo : pkt.info.encryptAlgo with
  | wep40 | wep104 =>
      rw [algo] at iv
      simp [Ciphered, wepTouches_within iv small]
  | tkip =>
      rw [algo] at iv
      simp [Ciphered, tkipTouches_within iv small]
  | _ => simp [Ciphered]

end Cipher

/-! ## `rx_process_data_frame` -/

section Process

variable {nic : RxNic} {wdn : RxWdn} {pkt : RxPkt}

theorem rxParseQosCtrlField_qosFlag (pkt : RxPkt) :
    (rxParseQosCtrlField pkt).info.qosFlag = pkt.info.qosFlag := by
  obtain ⟨_, _, _, parsed, -⟩ := rxParseQosCtrlField_eq pkt
  rw [parsed]

theorem processTouches_within (control : 2 ≤ pkt.len) (small : pkt.len < 2 ^ 32) :
    Within (pkt.pdata + pkt.len) (processTouches nic wdn pkt) ↔
      (pkt.info.qosFlag = true → qosOffset pkt + 2 ≤ pkt.len) ∧
      (getHdrProtected pkt.mem pkt.pdata = true → Ciphered (algoOf nic wdn pkt) →
        hdrLenOf pkt + rxIvLen (algoOf nic wdn pkt) + rxIcvLen (algoOf nic wdn pkt) ≤
          pkt.len) := by
  obtain ⟨qosPri, ackPolicy, amsdu, parsed, -⟩ := parseHeader_eq nic wdn pkt
  have field : pkt.pdata + qosOffset pkt + 2 ≤ pkt.pdata + pkt.len ↔
      qosOffset pkt + 2 ≤ pkt.len := by omega
  have opened := @decryptTouches_within nic (parseHeader nic wdn pkt) (by rw [parsed]; exact control)
    (by rw [parsed]; exact small) (by rw [parsed])
  rw [parsed] at opened
  simp only [cipherLen] at opened
  simp only [processTouches, parsed, rxParseQosCtrlField_qosFlag, within_append, within_cons,
    within_ite, within_nil, frameControl, ok_read, Nat.add_le_add_iff_left, control, opened,
    field]
  simp

/-! ## A decrypted body -/

def snapStart : List UInt8 := [0xaa, 0xaa, 0x03, 0x00, 0x00]

theorem snapStart_of {head : List UInt8}
    (snap : head = wlRfc1042Header ∨ head = wlBridgeTunnelHeader) : head.take 5 = snapStart := by
  rcases snap with rfl | rfl <;> rfl

/-- The checksum of two or three bytes of an LLC header is not the bytes that follow. -/
theorem snapStart_unchecked {k : Nat} (few : k = 2 ∨ k = 3) :
    (le32 (getCrc32 (snapStart.take k))).take (5 - k) ≠ snapStart.drop k := by
  rcases few with rfl | rfl <;> decide +kernel

theorem decryptBody_head {key : List UInt8} {pkt opened : RxPkt}
    (found : decryptBody key pkt = some opened) (icv : pkt.info.icvLen = 4)
    (six : pkt.bodyOffset + 6 ≤ pkt.len)
    (snap : opened.mem.read (pkt.pdata + pkt.bodyOffset) snapHdrSize = wlRfc1042Header ∨
      opened.mem.read (pkt.pdata + pkt.bodyOffset) snapHdrSize = wlBridgeTunnelHeader) :
    pkt.bodyOffset + 8 ≤ pkt.len := by
  have start := snapStart_of snap
  unfold RxPkt.bodyOffset at six start ⊢
  simp only [decryptBody, Option.ite_none_left_eq_some, Option.some.injEq, not_not, icv] at found
  obtain ⟨checked, rfl⟩ := found
  generalize payloadLen : pkt.len - (pkt.info.wlanHdrLen + pkt.info.ivLen + 4) = m
    at checked start
  have length : ((arc4Encrypt (arc4Init key) (pkt.mem.read
      (pkt.pdata + pkt.info.wlanHdrLen + pkt.info.ivLen) (m + 4))).1).length = m + 4 := by
    simp [arc4Encrypt, length_keystreamXor]
  generalize (arc4Encrypt (arc4Init key) (pkt.mem.read
    (pkt.pdata + pkt.info.wlanHdrLen + pkt.info.ivLen) (m + 4))).1 = plain
    at checked start length
  have here : plain.take 5 = snapStart := by
    rw [← start, Mem.take_read _ _ (by decide), ← Nat.add_assoc]
    exact (@Mem.read_write_inside pkt.mem _ 0 5 plain (by omega)).symm
  by_contra short
  -- the payload has two or three bytes
  have payload : plain.take m = snapStart.take m := by
    rw [← here, List.take_take, Nat.min_eq_left (by omega)]
  have following : (plain.drop m).take (5 - m) = snapStart.drop m := by
    rw [← here, List.drop_take]
  have wrong := @snapStart_unchecked m (by omega)
  rw [← payload, ← following, ← checked, List.take_take, Nat.min_eq_left (by omega)] at wrong
  exact wrong rfl

/-! ## `wlan_to_eth` -/

theorem snapTouches_within {mem : Mem} {phdr n : Nat} :
    Within n (snapTouches mem phdr) ↔ phdr + 6 ≤ n ∧
      (mem.read phdr snapHdrSize = wlRfc1042Header → phdr + 8 ≤ n) := by
  have six : phdr + snapHdrSize ≤ n ↔ phdr + 6 ≤ n := Iff.rfl
  have eight : phdr + snapHdrSize + 2 ≤ n ↔ phdr + 8 ≤ n := Iff.rfl
  simp only [snapTouches, within_append, within_ite, within_cons, within_nil, ok_read, six, eight]
  constructor
  · intro inside
    exact ⟨inside.1.1.1, fun head => (inside.1.2.1 head).1⟩
  · rintro ⟨here, behind⟩
    simp only [here, and_true, implies_true, true_and]
    exact fun head => ⟨behind head, fun _ => behind head⟩

theorem trimmed_eq (pkt : RxPkt) : ∃ len, trimmed pkt = { pkt with len } := by
  unfold trimmed pktTrim
  split_ifs <;> exact ⟨_, rfl⟩

theorem isSnapHdr_iff {mem : Mem} {phdr : Nat} :
    isSnapHdr mem phdr = true ↔
      mem.read phdr snapHdrSize = wlRfc1042Header ∧
        mem.read (phdr + snapHdrSize) 2 ≠ snapEthTypeIpx ∧
        mem.read (phdr + snapHdrSize) 2 ≠ snapEthTypeAppletalkAarp ∨
      mem.read phdr snapHdrSize = wlBridgeTunnelHeader := by
  simp [isSnapHdr, and_assoc]

theorem wlanToEthTouches_within {n : Nat} :
    Within n (wlanToEthTouches pkt) ↔
      ((trimmed pkt).len ≠ pkt.info.wlanHdrLen →
        pkt.pdata + pkt.bodyOffset + 6 ≤ n ∧
          (pkt.mem.read (pkt.pdata + pkt.bodyOffset) snapHdrSize = wlRfc1042Header ∨
            pkt.mem.read (pkt.pdata + pkt.bodyOffset) snapHdrSize = wlBridgeTunnelHeader ∧
              pkt.bodyOffset + 6 ≤ (trimmed pkt).len →
            pkt.pdata + pkt.bodyOffset + 8 ≤ n)) := by
  obtain ⟨len, cut⟩ := trimmed_eq pkt
  simp only [wlanToEthTouches, cut, RxPkt.bodyOffset]
  generalize whole : pkt.info.wlanHdrLen + pkt.info.ivLen = body
  by_cases null : len = pkt.info.wlanHdrLen
  · simp [null]
  · simp only [null, if_false, within_append, snapTouches_within, within_ite, within_cons,
      within_nil, ok_read, not_false_eq_true, true_imp_iff, ne_eq, and_true]
    by_cases snap : isSnapHdr pkt.mem (pkt.pdata + body) = true
    · have header := isSnapHdr_iff.mp snap
      have eight : pkt.pdata + (body + snapHdrSize) + 2 ≤ n ↔ pkt.pdata + body + 8 ≤ n := by
        unfold snapHdrSize
        omega
      have long : ¬ len < body + snapHdrSize ↔ body + 6 ≤ len := Nat.not_lt
      simp only [snap, if_true, eight, long, implies_true, true_and]
      constructor
      · rintro ⟨⟨six, rfc1042⟩, behind⟩
        refine ⟨six, ?_⟩
        rintro (head | ⟨-, inside⟩)
        · exact rfc1042 head
        · exact behind inside
      · rintro ⟨six, behind⟩
        refine ⟨⟨six, fun head => behind (.inl head)⟩, fun inside => ?_⟩
        rcases header with ⟨head, -⟩ | head
        · exact behind (.inl head)
        · exact behind (.inr ⟨head, inside⟩)
    · have header := mt isSnapHdr_iff.mpr snap
      have two : pkt.pdata + body + 6 ≤ n → pkt.pdata + body + 2 ≤ n := by omega
      simp only [snap, Bool.false_eq_true, if_false, Nat.add_zero, implies_true, true_and]
      constructor
      · rintro ⟨⟨six, rfc1042⟩, -⟩
        refine ⟨six, ?_⟩
        rintro (head | ⟨head, -⟩)
        · exact rfc1042 head
        · exact absurd (.inr head) header
      · rintro ⟨six, behind⟩
        exact ⟨⟨six, fun head => behind (.inl head)⟩, fun _ => two six⟩

/-! ## From the frame to the upload -/

theorem rxIcvLen_le (algo : EncryptAlgo) : rxIcvLen algo ≤ 16 := by
  cases algo <;> decide

theorem algoOf_clear (clear : getHdrProtected pkt.mem pkt.pdata = false) :
    algoOf nic wdn pkt = .noPrivacy := by
  simp [algoOf, setEncryptAlgoNum, clear]

theorem rxProcessDataFrame_cases {opened : RxPkt}
    (found : rxProcessDataFrame nic wdn pkt = some opened) :
    getHdrProtected pkt.mem pkt.pdata = true ∧
        wfSecDecryptor nic (parseHeader nic wdn pkt) = some opened ∨
      getHdrProtected pkt.mem pkt.pdata = false ∧ opened = parseHeader nic wdn pkt := by
  obtain ⟨_, _, _, parsed, -⟩ := parseHeader_eq nic wdn pkt
  have frame : getHdrProtected (parseHeader nic wdn pkt).mem (parseHeader nic wdn pkt).pdata =
      getHdrProtected pkt.mem pkt.pdata := by
    rw [parsed]
  simp only [rxProcessDataFrame, frame, Option.filter_eq_some_iff] at found
  cases closed : getHdrProtected pkt.mem pkt.pdata with
  | true => exact .inl ⟨rfl, by simpa [closed] using found.1⟩
  | false =>
      have same : parseHeader nic wdn pkt = opened := by simpa [closed] using found.1
      exact .inr ⟨rfl, same.symm⟩

/-- The ICV is cut off where there is one. -/
theorem trimmed_len {opened : RxPkt} (found : rxProcessDataFrame nic wdn pkt = some opened)
    (fresh : pkt.info.bdecrypted = false) (known : 16 ≤ pkt.len) :
    (trimmed opened).len = pkt.len - rxIcvLen (algoOf nic wdn pkt) := by
  obtain ⟨_, _, _, parsed, -⟩ := parseHeader_eq nic wdn pkt
  have short := rxIcvLen_le (algoOf nic wdn pkt)
  rcases rxProcessDataFrame_cases found with ⟨-, found⟩ | ⟨clear, rfl⟩
  · have kept := wfSecDecryptor_opened found
    obtain ⟨_, info⟩ := kept.1.info
    have icvLen : opened.info.icvLen = rxIcvLen (algoOf nic wdn pkt) := by
      rw [info, parsed]
    have len : opened.len = pkt.len := by
      rw [kept.1.len, parsed]
    rw [trimmed, if_pos kept.2, pktTrim, icvLen, len, if_neg (by omega)]
  · rw [trimmed, if_neg (by simp [parsed, fresh]), algoOf_clear clear, parsed]
    rfl

theorem opened_mem {opened : RxPkt} (found : rxProcessDataFrame nic wdn pkt = some opened)
    (plain : ¬ Ciphered (algoOf nic wdn pkt)) : opened.mem = pkt.mem := by
  obtain ⟨_, _, _, parsed, -⟩ := parseHeader_eq nic wdn pkt
  rcases rxProcessDataFrame_cases found with ⟨-, found⟩ | ⟨-, rfl⟩
  · rw [parsed] at found
    cases algo : algoOf nic wdn pkt with
    | wep40 | wep104 | tkip => simp [Ciphered, algo] at plain
    | _ =>
        simp only [wfSecDecryptor, algo, Option.map_some, Option.some.injEq] at found
        rw [← found]
  · rw [parsed]

theorem opened_body {opened : RxPkt} (found : rxProcessDataFrame nic wdn pkt = some opened)
    (ciphered : Ciphered (algoOf nic wdn pkt)) :
    ∃ key body, decryptBody key (parseHeader nic wdn pkt) = some body ∧
      opened.mem = body.mem := by
  obtain ⟨_, _, _, parsed, -⟩ := parseHeader_eq nic wdn pkt
  have which : (parseHeader nic wdn pkt).info.encryptAlgo = algoOf nic wdn pkt := by
    rw [parsed]
  rcases rxProcessDataFrame_cases found with ⟨-, opens⟩ | ⟨clear, -⟩
  · simp only [wfSecDecryptor, which, Option.map_eq_some_iff] at opens
    obtain ⟨body, opens, rfl⟩ := opens
    rcases ciphered with algo | algo | algo
    · rw [algo] at opens
      exact ⟨_, body, opens, rfl⟩
    · rw [algo] at opens
      exact ⟨_, body, opens, rfl⟩
    · rw [algo] at opens
      simp only [tkipDecrypt, Option.bind_eq_bind, Option.bind_eq_some_iff] at opens
      obtain ⟨_, -, opens⟩ := opens
      exact ⟨_, body, opens, rfl⟩
  · rw [algoOf_clear clear] at ciphered
    simp [Ciphered] at ciphered

theorem uploadTouches_within {opened : RxPkt}
    (found : rxProcessDataFrame nic wdn pkt = some opened)
    (fresh : pkt.info.bdecrypted = false) (known : 16 ≤ pkt.len) :
    Within (pkt.pdata + pkt.len) (wlanToEthTouches opened) ↔
      LlcFit (algoOf nic wdn pkt) pkt := by
  obtain ⟨_, _, _, parsed, -⟩ := parseHeader_eq nic wdn pkt
  have kept := rxProcessDataFrame_opened found
  obtain ⟨_, info⟩ := kept.info
  have short := rxIcvLen_le (algoOf nic wdn pkt)
  have pdata : opened.pdata = pkt.pdata := by rw [kept.pdata, parsed]
  have hdrLen : opened.info.wlanHdrLen = hdrLenOf pkt := by rw [info, parsed]
  have offset : opened.bodyOffset = hdrLenOf pkt + rxIvLen (algoOf nic wdn pkt) := by
    rw [RxPkt.bodyOffset, info, parsed]
  rw [wlanToEthTouches_within, trimmed_len found fresh known, pdata, hdrLen, offset]
  simp only [LlcFit, Nat.add_assoc pkt.pdata, Nat.add_le_add_iff_left]
  have body : pkt.len - rxIcvLen (algoOf nic wdn pkt) ≠ hdrLenOf pkt ↔
      pkt.len ≠ hdrLenOf pkt + rxIcvLen (algoOf nic wdn pkt) := by omega
  rw [body]
  apply imp_congr_right
  intro _
  apply and_congr_right
  intro six
  by_cases ciphered : Ciphered (algoOf nic wdn pkt)
  · simp only [ciphered, not_true_eq_false, false_imp_iff, iff_true]
    obtain ⟨key, plain, opens, mem⟩ := opened_body found ciphered
    have icv : (parseHeader nic wdn pkt).info.icvLen = 4 := by
      rw [parsed]
      rcases ciphered with algo | algo | algo <;> rw [algo] <;> rfl
    have long := decryptBody_head opens icv
    rw [← mem] at long
    simp only [parsed, RxPkt.bodyOffset] at long
    intro snap
    exact long six (snap.imp_right And.left)
  · rw [opened_mem found ciphered]
    have cut : hdrLenOf pkt + rxIvLen (algoOf nic wdn pkt) + 6 ≤
        pkt.len - rxIcvLen (algoOf nic wdn pkt) ↔
      hdrLenOf pkt + rxIvLen (algoOf nic wdn pkt) + 6 + rxIcvLen (algoOf nic wdn pkt) ≤
        pkt.len := by omega
    simp only [ciphered, not_false_eq_true, true_imp_iff, cut]

theorem amsdu_eq {opened : RxPkt} (found : rxProcessDataFrame nic wdn pkt = some opened) :
    opened.info.amsdu = (rxParseQosCtrlField pkt).info.amsdu := by
  obtain ⟨_, info⟩ := (rxProcessDataFrame_opened found).info
  rw [info, parseHeader, rxParseHtCtrlField]
  split <;> rfl

/-- The part of `mpdu_process` behind the check of the frame. -/
theorem restTouches_within {baEnable : Bool} (fresh : pkt.info.bdecrypted = false)
    (known : 16 ≤ pkt.len) (small : pkt.len < 2 ^ 32) :
    Within (pkt.pdata + pkt.len) (processTouches nic wdn pkt ++
        match rxProcessDataFrame nic wdn pkt with
        | none => [.free true]
        | some pkt =>
            frameControl pkt ::
              if baEnable = true ∨ pkt.info.amsdu = false then wlanToEthTouches pkt else []) ↔
      BodyFit nic wdn baEnable pkt := by
  rw [within_append, processTouches_within (by omega) small]
  cases found : rxProcessDataFrame nic wdn pkt with
  | none =>
      constructor
      · intro header
        exact ⟨header.1.1, header.1.2, by simp [found]⟩
      · intro fit
        exact ⟨⟨fit.qos, fit.cipher⟩, by simp⟩
  | some opened =>
      obtain ⟨_, _, _, parsed, -⟩ := parseHeader_eq nic wdn pkt
      have pdata : opened.pdata = pkt.pdata := by
        rw [(rxProcessDataFrame_opened found).pdata, parsed]
      have control : pkt.pdata + 2 ≤ pkt.pdata + pkt.len := by omega
      simp only [within_cons, frameControl, ok_read, pdata, control, true_and, within_ite,
        within_nil, amsdu_eq found, uploadTouches_within found fresh known, implies_true, and_true]
      constructor
      · intro header
        exact ⟨header.1.1, header.1.2, fun _ => header.2⟩
      · intro fit
        exact ⟨⟨fit.qos, fit.cipher⟩, fit.llc (by simp [found])⟩

end Process

/-! ## A packet -/

section Packet

variable {build : RxBuild} {env : RxEnv} {pkt : RxPkt}

theorem dataTouches_within {rxd : RxDesc} {pwdn : Nat} (dst : pkt.info.dstAddr.length = 6)
    (src : pkt.info.srcAddr.length = 6) (fresh : pkt.info.bdecrypted = false)
    (known : 16 ≤ pkt.len) (small : pkt.len < 2 ^ 32) :
    Within (pkt.pdata + pkt.len) (dataTouches env rxd pwdn pkt) ↔
      DataFit env rxd pwdn pkt := by
  simp only [dataTouches, within_append, addrTouches_within known]
  cases addressed : rxCheckAddrs env.nic (env.nic.wdn pwdn) pkt with
  | none =>
      constructor
      · intro addrs
        exact ⟨addrs.1, by simp [addressed]⟩
      · intro fit
        exact ⟨fit.addr3, by simp⟩
  | some checked =>
      have taken := rxCheckAddrs_addressed dst src addressed
      obtain ⟨_, _, _, _, _, info⟩ := taken.info
      have control : pkt.pdata + 2 ≤ pkt.pdata + pkt.len := by omega
      cases numbered : rxCheckSeqCtrl (env.nic.wdn pwdn) rxd checked with
      | none =>
          constructor
          · intro addrs
            refine ⟨addrs.1, ?_⟩
            intro other wdn same followed
            cases addressed.symm.trans same
            cases numbered.symm.trans followed
          · intro fit
            exact ⟨fit.addr3, by simp [numbered, frameControl, taken.pdata, control]⟩
      | some wdn =>
          have rest := @restTouches_within
            { env.nic with wdn := Function.update env.nic.wdn pwdn wdn } wdn checked env.baEnable
            (by rw [info]; exact fresh) (by rw [taken.len]; exact known)
            (by rw [taken.len]; exact small)
          rw [taken.pdata, taken.len] at rest
          simp only [numbered, within_cons, frameControl, ok_read, taken.pdata, control, true_and]
          constructor
          · intro addrs
            refine ⟨addrs.1, ?_⟩
            intro other next same followed
            cases addressed.symm.trans same
            cases numbered.symm.trans followed
            exact rest.mp addrs.2
          · intro fit
            exact ⟨fit.addr3, rest.mpr (fit.body checked wdn addressed numbered)⟩

theorem lpsTouches_within (control : 2 ≤ pkt.len) :
    Within (pkt.pdata + pkt.len) (lpsTouches pkt) ↔
      getDa pkt.mem pkt.pdata + bcstLooks pkt.mem (getDa pkt.mem pkt.pdata) ≤
        pkt.pdata + pkt.len := by
  have one : 1 ≤ bcstLooks pkt.mem (getDa pkt.mem pkt.pdata) := Nat.le_add_left _ _
  simp only [lpsTouches, within_append, within_cons, within_ite, within_nil, frameControl, ok_read,
    Nat.add_le_add_iff_left, control, true_and, and_true]
  constructor
  · intro looked
    exact looked.1
  · intro looked
    exact ⟨looked, fun _ => trivial, fun _ => by omega⟩

theorem station_known {pwdn : Nat} (found : station env pkt = some pwdn) :
    env.stations = true := by
  unfold station at found
  split at found
  · assumption
  · contradiction

theorem frameTouches_within (dst : pkt.info.dstAddr.length = 6)
    (src : pkt.info.srcAddr.length = 6) (fresh : pkt.info.bdecrypted = false)
    (small : pkt.len < 2 ^ 32) :
    Within (pkt.pdata + pkt.len) (frameTouches build env pkt) ↔ FrameFit build env pkt := by
  have transmitter : pkt.pdata + 10 + 6 ≤ pkt.pdata + pkt.len ↔ 16 ≤ pkt.len := by omega
  simp only [frameTouches, within_append, within_cons, within_ite, within_nil, frameControl, addr2,
    ok_read, transmitter, Nat.add_le_add_iff_left, implies_true, and_true]
  constructor
  · rintro ⟨⟨known, looked⟩, control, data, rest⟩
    constructor
    · exact control
    · exact known
    · intro lps
      exact (lpsTouches_within control).mp (looked lps)
    · intro type pwdn found
      have touches := data type
      rw [found] at touches
      exact (dataTouches_within dst src fresh (known (station_known found)) small).mp touches
    · intro type
      exact (mgmtTouches_within env _ control).mp ((rest (by rw [type]; decide)).1 type)
  · intro fit
    refine ⟨⟨fit.transmitter, fun lps => ?_⟩, fit.control, fun type => ?_, fun other => ?_⟩
    · exact (lpsTouches_within fit.control).mpr (fit.destination lps)
    · cases found : station env pkt with
      | none => simp
      | some pwdn =>
          exact (dataTouches_within dst src fresh (fit.transmitter (station_known found))
            small).mpr (fit.data type pwdn found)
    · constructor
      · intro type
        exact (mgmtTouches_within env _ fit.control).mpr (fit.mgmt type)
      · intro _
        simp [fit.control]

/-- What is behind the descriptor of a valid packet decides. -/
theorem mpduTouches_within {mem : Mem} {pktLen : Nat} (long : hifHdrLen < pktLen)
    (small : pktLen < 2 ^ 32) :
    Within pktLen (mpduTouches build env mem pktLen) ↔ MpduFit build env mem pktLen := by
  have frame := @frameTouches_within build env (framePkt build mem pktLen) rfl rfl rfl
    (show pktLen - hifHdrLen < 2 ^ 32 by omega)
  rw [show (framePkt build mem pktLen).pdata + (framePkt build mem pktLen).len = pktLen from
    Nat.add_sub_of_le (Nat.le_of_lt long)] at frame
  have header : rxdescSize + 32 < pktLen := long
  have byte : 0 + 1 ≤ pktLen := by omega
  have descriptor : rxdescSize ≤ pktLen := by omega
  have status : rxdescSize + phyStatusSize ≤ pktLen := by
    unfold phyStatusSize
    omega
  by_cases astray : build.richv200 = true ∧ rxdBits mem 0 0 2 ≠ wfPktTypeFrame
  · rw [mpduTouches, if_pos astray]
    constructor
    · intro inside
      simp at inside
    · intro fit
      exact absurd (fit.type astray.1) astray.2
  · have type : build.richv200 = true → rxdBits mem 0 0 2 = wfPktTypeFrame := by
      simpa using astray
    rw [mpduTouches, if_neg astray, if_neg (show ¬ pktLen < hifHdrLen by omega)]
    cases alloc : env.alloc with
    | false =>
        constructor
        · intro _
          exact ⟨type, by simp [alloc]⟩
        · intro _
          simpa using byte
    | true =>
        simp only [Bool.true_eq_false, if_false, within_append, within_cons, ok_read, byte,
          descriptor, Nat.zero_add, Nat.le_refl, within_nil, within_ite, status, implies_true,
          and_self, true_and, frame]
        constructor
        · intro fit
          exact ⟨type, fun _ => fit⟩
        · intro fit
          exact fit.frame alloc

end Packet

/-! ## A buffer -/

/-- Every descriptor that `rx_work` comes to passes the check. -/
def AllValid (build : RxBuild) (mem : Mem) (len : Nat) : Prop :=
  ∀ turn ∈ rxTurns build mem (len + 1) 0 len,
    (wfRxGetPktLenAndCheckValid build mem turn.1 turn.2).2 = true

/-- The bytes of a packet, from address 0 on. -/
def mpduMem (mem : Mem) (mpdu : RxMpdu) : Mem := fun i => mem (mpdu.pbuf + i)

/-- The descriptors are inside the buffer, and what is done with a packet inside it. -/
def ReceiveSafe (build : RxBuild) (mem : Mem) (len : Nat) (env : RxMpdu → RxEnv) : Prop :=
  Within len ((rxTurns build mem (len + 1) 0 len).map fun turn => .read turn.1 rxdescSize) ∧
    ∀ mpdu ∈ rxMpdus build mem len,
      Within mpdu.pktLen (mpduTouches build (env mpdu) (mpduMem mem mpdu) mpdu.pktLen)

instance (build : RxBuild) (mem : Mem) (len : Nat) : Decidable (AllValid build mem len) :=
  inferInstanceAs (Decidable (∀ turn ∈ _, _ = true))

instance (build : RxBuild) (mem : Mem) (len : Nat) (env : RxMpdu → RxEnv) :
    Decidable (ReceiveSafe build mem len env) :=
  inferInstanceAs (Decidable (_ ∧ ∀ mpdu ∈ _, Within _ _))

section Buffer

variable {build : RxBuild} {mem : Mem}

theorem rxTurns_inside {fuel pbuf remain : Nat} :
    ∀ turn ∈ rxTurns build mem fuel pbuf remain, turn.1 + turn.2 = pbuf + remain := by
  induction fuel generalizing pbuf remain with
  | zero => simp [rxTurns]
  | succ fuel ih =>
      intro turn member
      simp only [rxTurns, List.mem_cons] at member
      rcases member with rfl | member
      · rfl
      · split at member
        · simp at member
        · have inside := ih turn member
          omega

theorem rxLoop_turn {fuel pbuf remain : Nat} :
    ∀ mpdu ∈ rxLoop build mem fuel pbuf remain, ∃ at_ remainLen,
      (wfRxGetPktLenAndCheckValid build mem at_ remainLen).2 = true ∧
        mpdu.pktLen = (wfRxGetPktLenAndCheckValid build mem at_ remainLen).1 := by
  induction fuel generalizing pbuf remain with
  | zero => simp [rxLoop]
  | succ fuel ih =>
      intro mpdu member
      simp only [rxLoop] at member
      cases valid : (wfRxGetPktLenAndCheckValid build mem pbuf remain).2 with
      | false => simp [valid] at member
      | true =>
          simp only [valid, Bool.true_eq_false, if_false, List.mem_cons] at member
          rcases member with rfl | member
          · exact ⟨pbuf, remain, valid, rfl⟩
          · split at member
            · simp at member
            · exact ih mpdu member

end Buffer

/-- Nothing is read outside a packet, no length wraps and no pointer is freed that was not
set, exactly when the packets are frames and as long as their fields say. -/
theorem receive_safe_iff (build : RxBuild) (mem : Mem) (len : Nat) (env : RxMpdu → RxEnv)
    (valid : AllValid build mem len) :
    ReceiveSafe build mem len env ↔ ∀ mpdu ∈ rxMpdus build mem len,
      MpduFit build (env mpdu) (mpduMem mem mpdu) mpdu.pktLen := by
  have descriptors : Within len
      ((rxTurns build mem (len + 1) 0 len).map fun turn => .read turn.1 rxdescSize) := by
    intro touch member
    obtain ⟨turn, visited, rfl⟩ := List.mem_map.mp member
    have fits := valid_length (valid turn visited)
    have inside := rxTurns_inside turn visited
    rw [ok_read]
    omega
  simp only [ReceiveSafe, descriptors, true_and]
  apply forall₂_congr
  intro mpdu member
  obtain ⟨_, _, checked, length⟩ := rxLoop_turn mpdu member
  have long := valid_length checked
  exact mpduTouches_within (by unfold hifHdrLen; omega) (by omega)

/-- A packet of `CONFIG_RICHV200` that is a frame. -/
def framePacket (frame : List UInt8) : Mem := (packetMem (packetOf frame)).write 0 [3]

/-- The header of a data frame to the access point. -/
def toAccessPoint (flags : UInt8) : List UInt8 :=
  [0x08, flags, 0, 0] ++ apAddr.toList ++ staAddr.toList ++ apAddr.toList ++ [0x10, 0]

def accessPointEnv (algo : EncryptAlgo) : RxEnv where
  lps := false
  nic := accessPointRx algo
  stations := true
  alloc := true
  mgmtDone := true
  baEnable := true

def arpFrame : List UInt8 := toAccessPoint 0x01 ++ wlRfc1042Header ++ [0x08, 0x06]

theorem receive_safe_iff_arp :
    ReceiveSafe richv200 (framePacket arpFrame) 88 (fun _ => accessPointEnv .noPrivacy) ∧
      ∀ mpdu ∈ rxMpdus richv200 (framePacket arpFrame) 88,
        MpduFit richv200 (accessPointEnv .noPrivacy) (mpduMem (framePacket arpFrame) mpdu)
          mpdu.pktLen := by
  have safe : ReceiveSafe richv200 (framePacket arpFrame) 88
      (fun _ => accessPointEnv .noPrivacy) := by decide +kernel
  have valid : AllValid richv200 (framePacket arpFrame) 88 := by decide +kernel
  exact ⟨safe, (receive_safe_iff richv200 _ 88 _ valid).mp safe⟩

/-- A packet that is not a frame, and a WEP frame that ends behind its header. -/
theorem receive_unsafe :
    (AllValid richv200 (packetMem (packetOf [0x08])) 57 ∧
      ¬ ReceiveSafe richv200 (packetMem (packetOf [0x08])) 57
        fun _ => accessPointEnv .wep40) ∧
    AllValid richv200 (framePacket (toAccessPoint 0x41)) 80 ∧
      ¬ ReceiveSafe richv200 (framePacket (toAccessPoint 0x41)) 80
        fun _ => accessPointEnv .wep40 := by
  decide +kernel

end Smartchip.Rx
