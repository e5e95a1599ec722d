import Smartchip.Tx.Fragment

/-!
# The attributes of a frame

`wf_xmit_frame_init` reads the Ethernet header, finds the station, chooses the
cipher and the IV and sets the lengths that the rest of the transmit path uses.
-/

namespace Smartchip.Tx

open Smartchip.Foundation Smartchip.Frame Smartchip.Sec

inductive AuthAlgrthm where
  | openSystem
  | shared
  | dot8021X
  | auto
  | wapi
  deriving DecidableEq, Repr

structure TxSec where
  dot11AuthAlgrthm : AuthAlgrthm
  dot11PrivacyAlgrthm : EncryptAlgo
  dot118021XGrpPrivacy : EncryptAlgo
  dot11PrivacyKeyIndex : UInt32
  busetkipkey : Bool

structure TxWdnSec where
  ieee8021xBlocked : Bool
  dot118021XPrivacy : EncryptAlgo
  dot11tkiptxmickey : Keytype
  dot118021xUncstKey : Keytype
  dot11txpn : UInt64
  acmMask : UInt8

/-! ## The IV -/

/-- Byte `k` of `union pn48`. -/
def tsc (txpn : UInt64) (k : Nat) : UInt8 := UInt8.ofNat (txpn.toNat / 256 ^ k)

def ivKeyidx (keyidx : UInt8) : UInt8 := (keyidx &&& 0x3) <<< (6 : UInt8)

def wepIv (txpn : UInt64) (keyidx : UInt8) : List UInt8 :=
  [tsc txpn 0, tsc txpn 1, tsc txpn 2, ivKeyidx keyidx]

def tkipIv (txpn : UInt64) (keyidx : UInt8) : List UInt8 :=
  [tsc txpn 1, (tsc txpn 1 ||| 0x20) &&& 0x7f, tsc txpn 0,
    0x20 ||| ivKeyidx keyidx, tsc txpn 2, tsc txpn 3, tsc txpn 4, tsc txpn 5]

def aesIv (txpn : UInt64) (keyidx : UInt8) : List UInt8 :=
  [tsc txpn 0, tsc txpn 1, 0, 0x20 ||| ivKeyidx keyidx, tsc txpn 2, tsc txpn 3,
    tsc txpn 4, tsc txpn 5]

def nextTxpn (last txpn : UInt64) : UInt64 := if txpn = last then 0 else txpn + 1

def setIv (frame : XmitFrame) (iv : List UInt8) : XmitFrame :=
  { frame with iv := iv ++ frame.iv.drop iv.length }

/-! ## The cipher -/

def getEncryAlgo (sec : TxSec) (pwdn : TxWdnSec) (bmcst : Bool) : EncryptAlgo :=
  match sec.dot11AuthAlgrthm with
  | .openSystem | .shared | .auto | .wapi => sec.dot11PrivacyAlgrthm
  | .dot8021X =>
      if bmcst then sec.dot118021XGrpPrivacy else pwdn.dot118021XPrivacy

def txKeyIdx (nic : TxNic) (sec : TxSec) (bmcast : Bool) : UInt8 :=
  match sec.dot11AuthAlgrthm with
  | .openSystem | .shared | .auto => sec.dot11PrivacyKeyIndex.toUInt8
  | .dot8021X => if bmcast then nic.secInfo.dot118021XGrpKeyid else 0
  | .wapi => 0

/-- Before the handshake is complete only EAPOL frames pass, in the clear. -/
def chooseAlgo (sec : TxSec) (pwdn : TxWdnSec) (frame : XmitFrame) :
    Option EncryptAlgo :=
  if sec.dot11AuthAlgrthm = .dot8021X ∧ pwdn.ieee8021xBlocked then
    if frame.etherType ≠ 0x888e then none else some .noPrivacy
  else
    let algo := getEncryAlgo sec pwdn frame.bmcast
    if (algo = .wep40 ∨ algo = .wep104) ∧ frame.etherType = 0x888e then
      some .noPrivacy
    else some algo

/-- The switch over the cipher; the second value is the packet number. -/
def setCipher (nic : TxNic) (sec : TxSec) (pwdn : TxWdnSec)
    (frame : XmitFrame) : Option (XmitFrame × UInt64) :=
  let keyidx := txKeyIdx nic sec frame.bmcast
  let pairwise := if frame.bmcast then keyidx else 0
  match frame.encryptAlgo with
  | .wep40 | .wep104 =>
      some (setIv { frame with ivLen := 4, icvLen := 4 }
        (wepIv pwdn.dot11txpn keyidx), nextTxpn 0xffffff pwdn.dot11txpn)
  | .tkip =>
      if sec.busetkipkey = false then none
      else
        some (setIv { frame with
            ivLen := 8, icvLen := 4, dot11tkiptxmickey := pwdn.dot11tkiptxmickey }
          (tkipIv pwdn.dot11txpn pairwise),
          nextTxpn 0xffffffffffff pwdn.dot11txpn)
  | .aes =>
      some (setIv { frame with ivLen := 8, icvLen := 8 }
        (aesIv pwdn.dot11txpn pairwise),
        nextTxpn 0xffffffffffff pwdn.dot11txpn)
  | _ => some ({ frame with ivLen := 0, icvLen := 0 }, pwdn.dot11txpn)

def xmitFrameSecInit (nic : TxNic) (sec : TxSec) (pwdn : TxWdnSec)
    (frame : XmitFrame) : Option (XmitFrame × UInt64) := do
  let frame := { frame with
    dot11tkiptxmickey := Vector.replicate 16 0
    dot118021xUncstKey := Vector.replicate 16 0 }
  let algo ← chooseAlgo sec pwdn frame
  let (frame, txpn) ← setCipher nic sec pwdn { frame with encryptAlgo := algo }
  let uncstKey :=
    if algo ≠ .noPrivacy ∧ algo ≠ .wep40 ∧ algo ≠ .wep104 then
      pwdn.dot118021xUncstKey
    else frame.dot118021xUncstKey
  some ({ frame with
    dot118021xUncstKey := uncstKey
    bswenc := decide (algo ≠ .aes) }, txpn)

/-! ## The priority -/

def wfChkQos (acmMask priority pad : UInt8) : UInt8 :=
  if pad = 0 then priority
  else if priority = 0 ∨ priority = 3 then
    if acmMask &&& 2 ≠ 0 then 1 else priority
  else if priority = 4 ∨ priority = 5 then
    if acmMask &&& 4 ≠ 0 then 0 else priority
  else if priority = 6 ∨ priority = 7 then
    if acmMask &&& 8 ≠ 0 then 5 else priority
  else priority

def doSetQos (frame : XmitFrame) (tos : UInt8) : XmitFrame :=
  { frame with
    priority := if frame.etherType = 0x0800 then tos >>> 5 else 0
    hdrlen := 26 }

def setQos (qosOption : Bool) (acmMask : UInt8) (tos : UInt8)
    (frame : XmitFrame) : XmitFrame :=
  let frame := { frame with priority := 0, pktHdrlen := ethHlen, hdrlen := 24 }
  if qosOption then
    let frame := doSetQos frame tos
    if acmMask ≠ 0 then
      { frame with priority := wfChkQos acmMask frame.priority 1 }
    else frame
  else frame

/-- `none` is the return of `wf_false`; the packet numbers are counted in the
table of the stations. -/
def wfXmitFrameInit (nic : TxNic) (sec : TxSec) (wdnSec : Nat → TxWdnSec)
    (frame : XmitFrame) (msdu : List UInt8) :
    Option (XmitFrame × (Nat → TxWdnSec)) := do
  if nic.workMode = .other then none
  else
    let raAddr := receiverAddr nic msdu
    let frame := { frame with
      bmcast := isMcast raAddr
      etherType := ofLe16 (msdu.getD 13 0) (msdu.getD 12 0) }
    let pwdn ← nic.wdnFindInfo (if isMcast raAddr then bcAddr else raAddr)
    let (frame, txpn) ← xmitFrameSecInit nic sec (wdnSec pwdn) frame
    let frame := setQos (nic.wdn pwdn).qosOption (wdnSec pwdn).acmMask
      (msdu.getD 15 0) { frame with pwdn }
    let frame :=
      if nic.dot80211nSupport then { frame with ampduEn := false } else frame
    some (frame, Function.update wdnSec pwdn
      { wdnSec pwdn with dot11txpn := txpn })

/-! ## What the rest of the path relies on -/

section Spec

variable {nic : TxNic} {sec : TxSec} {pwdn : TxWdnSec}
  {frame frame' : XmitFrame} {txpn : UInt64}

structure Ciphered (frame frame' : XmitFrame) : Prop where
  etherType : frame'.etherType = frame.etherType
  bmcast : frame'.bmcast = frame.bmcast
  ivLen : frame'.ivLen = txIvLen frame'.encryptAlgo
  icvLen : frame'.icvLen = txIcvLen frame'.encryptAlgo
  iv : frame'.ivLen ≤ frame'.iv.length

theorem setCipher_ciphered (h : setCipher nic sec pwdn frame = some (frame', txpn)) :
    Ciphered frame frame' ∧ frame'.encryptAlgo = frame.encryptAlgo := by
  unfold setCipher at h
  cases algo : frame.encryptAlgo with
  | wep40 | wep104 =>
      simp only [algo, Option.some.injEq, Prod.mk.injEq] at h
      obtain ⟨rfl, -⟩ := h
      exact ⟨⟨rfl, rfl, rfl, rfl, by simp [setIv, wepIv]⟩, rfl⟩
  | tkip =>
      simp only [algo, Option.ite_none_left_eq_some, Option.some.injEq,
        Prod.mk.injEq] at h
      obtain ⟨-, rfl, -⟩ := h
      exact ⟨⟨rfl, rfl, rfl, rfl, by simp [setIv, tkipIv]⟩, rfl⟩
  | aes =>
      simp only [algo, Option.some.injEq, Prod.mk.injEq] at h
      obtain ⟨rfl, -⟩ := h
      exact ⟨⟨rfl, rfl, rfl, rfl, by simp [setIv, aesIv]⟩, rfl⟩
  | noPrivacy | tkipWtmic | sms4 | wepWpaMixed =>
      simp only [algo, Option.some.injEq, Prod.mk.injEq] at h
      obtain ⟨rfl, -⟩ := h
      exact ⟨⟨rfl, rfl, rfl, rfl, Nat.zero_le _⟩, rfl⟩

theorem xmitFrameSecInit_ciphered
    (h : xmitFrameSecInit nic sec pwdn frame = some (frame', txpn)) :
    Ciphered frame frame' ∧ frame'.bswenc = decide (frame'.encryptAlgo ≠ .aes) := by
  unfold xmitFrameSecInit at h
  simp only [Option.bind_eq_bind, Option.bind_eq_some_iff, Option.some.injEq,
    Prod.mk.injEq] at h
  obtain ⟨algo, -, ⟨found, number⟩, hcipher, rfl, -⟩ := h
  obtain ⟨ciphered, halgo⟩ := setCipher_ciphered hcipher
  refine ⟨⟨ciphered.etherType, ciphered.bmcast, ciphered.ivLen, ciphered.icvLen,
    ciphered.iv⟩, ?_⟩
  simp only [halgo]

theorem setQos_eq (qosOption : Bool) (acmMask tos : UInt8) (frame : XmitFrame) :
    ∃ priority, setQos qosOption acmMask tos frame = { frame with
      priority
      pktHdrlen := ethHlen
      hdrlen := if qosOption then 26 else 24 } := by
  unfold setQos doSetQos
  cases qosOption with
  | false => exact ⟨0, rfl⟩
  | true =>
      by_cases mask : acmMask = 0
      · simp only [mask, ne_eq, not_true_eq_false, if_true, if_false]
        exact ⟨_, rfl⟩
      · simp only [mask, ne_eq, not_false_eq_true, if_true]
        exact ⟨_, rfl⟩

theorem be16_type {msdu : List UInt8} (long : ethHlen ≤ msdu.length) :
    be16 (ofLe16 (msdu.getD 13 0) (msdu.getD 12 0)) = (msdu.drop 12).take 2 := by
  unfold ethHlen at long
  have high : msdu[12]? = some msdu[12] := List.getElem?_eq_getElem (by omega)
  have low : msdu[13]? = some msdu[13] := List.getElem?_eq_getElem (by omega)
  rw [be16_ofLe16, List.getD, List.getD, high, low,
    List.drop_eq_getElem_cons (by omega), List.drop_eq_getElem_cons (by omega)]
  rfl

/-- The station that is found, and the frame and the packet number that the choice of
the cipher leaves. -/
theorem wfXmitFrameInit_cases {wdnSec wdnSec' : Nat → TxWdnSec} {msdu : List UInt8}
    (h : wfXmitFrameInit nic sec wdnSec frame msdu = some (frame', wdnSec')) :
    nic.workMode ≠ .other ∧ ∃ id ciphered txpn priority ampduEn,
      nic.wdnFindInfo (if isMcast (receiverAddr nic msdu) then bcAddr
        else receiverAddr nic msdu) = some id ∧
      xmitFrameSecInit nic sec (wdnSec id) { frame with
          bmcast := isMcast (receiverAddr nic msdu)
          etherType := ofLe16 (msdu.getD 13 0) (msdu.getD 12 0) } =
        some (ciphered, txpn) ∧
      frame' = { ciphered with
        pwdn := id
        priority
        pktHdrlen := ethHlen
        hdrlen := if (nic.wdn id).qosOption then 26 else 24
        ampduEn } ∧
      wdnSec' = Function.update wdnSec id { wdnSec id with dot11txpn := txpn } := by
  unfold wfXmitFrameInit at h
  simp only [Option.bind_eq_bind, Option.ite_none_left_eq_some,
    Option.bind_eq_some_iff, Option.some.injEq, Prod.mk.injEq] at h
  obtain ⟨mode, id, found, ⟨ciphered, txpn⟩, hsec, hframe, hwdn⟩ := h
  obtain ⟨priority, hqos⟩ := setQos_eq (nic.wdn id).qosOption
    (wdnSec id).acmMask (msdu.getD 15 0) { ciphered with pwdn := id }
  rw [hqos] at hframe
  split at hframe
  · exact ⟨mode, id, ciphered, txpn, priority, false, found, hsec, hframe.symm, hwdn.symm⟩
  · exact ⟨mode, id, ciphered, txpn, priority, _, found, hsec, hframe.symm, hwdn.symm⟩

/-- Every frame that `wf_xmit_frame_init` accepts is ready for
`wf_tx_msdu_to_mpdu`. -/
theorem wfXmitFrameInit_prepared {wdnSec wdnSec' : Nat → TxWdnSec}
    {msdu : List UInt8} (long : ethHlen ≤ msdu.length)
    (h : wfXmitFrameInit nic sec wdnSec frame msdu = some (frame', wdnSec')) :
    Prepared nic frame' msdu ∧ Addressed nic frame' msdu := by
  obtain ⟨mode, id, ciphered, txpn, priority, ampduEn, found, hsec, rfl, -⟩ :=
    wfXmitFrameInit_cases h
  obtain ⟨spec, bswenc⟩ := xmitFrameSecInit_ciphered hsec
  have type : be16 ciphered.etherType = (msdu.drop 12).take 2 := by
    rw [spec.etherType, be16_type long]
  exact ⟨⟨long, rfl, rfl, type, spec.bmcast, spec.ivLen, spec.icvLen, bswenc,
    spec.iv⟩, mode, found⟩

end Spec

end Smartchip.Tx
