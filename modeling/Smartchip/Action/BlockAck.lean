import Smartchip.Rx.ReorderRefinement
import Smartchip.Tx.Sequence

/-!
# Block-ack action frames

`nic/action.c`: the frames that set up and end a block-ack agreement, as
`wf_action_frame_ba_to_issue` builds them and as `action_frame_block_ack` reads them.
The host is little-endian, so `wf_cpu_to_le16` is the identity.
-/

namespace Smartchip.Action

open Smartchip.Foundation Smartchip.Frame

/-- `enum wf_action_block_ack_actioncode`. -/
inductive BaAction where
  | addbaReq
  | addbaResp
  | delba
  deriving DecidableEq, Repr

def BaAction.code : BaAction → UInt8
  | .addbaReq => 0
  | .addbaResp => 1
  | .delba => 2

/-- `WF_WLAN_CATEGORY_BACK`. -/
def categoryBack : UInt8 := 3

/-- `wf_add_ba_parm_st`. -/
structure AddBaParm where
  tid : UInt32 := 0
  startSeq : UInt32 := 0
  param : UInt16 := 0
  timeout : UInt16 := 0
  status : UInt16 := 0
  policy : UInt8 := 0
  size : UInt8 := 0
  dialog : UInt8 := 0
  deriving DecidableEq, Repr

/-- The block-ack part of `wdn_net_info_st`; the arrays are indexed by the TID. -/
structure WdnNetInfo where
  mac : MacAddr
  bssid : MacAddr
  qosOption : Bool
  htEnable : Bool
  htOption : Bool
  ampduEnable : Bool
  aggEnableBitmap : UInt8
  candidateTidBitmap : UInt8
  txAmsduEnable : Bool
  dialogToken : UInt8 → UInt8
  baEnableFlag : UInt8 → Bool
  baStartedFlag : UInt8 → Bool
  baStartingSeqctrl : UInt8 → UInt16
  txseqTid : UInt8 → UInt16

/-- The station as the transmit path sees it. -/
def WdnNetInfo.xmit (wdn : WdnNetInfo) : Tx.WdnNetInfo where
  qosOption := wdn.qosOption
  txseqTid := wdn.txseqTid
  htEnable := wdn.htEnable
  ampduEnable := wdn.ampduEnable
  aggEnableBitmap := wdn.aggEnableBitmap.toUInt32
  baStartingSeqctrl := wdn.baStartingSeqctrl

/-- `max_rx_ampdu_factor`. -/
inductive AmpduFactor where
  | k8
  | k16
  | k32
  | k64
  | other
  deriving DecidableEq, Repr

/-- `wdnHead` is the list of stations in use. -/
structure BaNic where
  workMode : WorkMode
  localAddr : MacAddr
  curBssid : MacAddr
  maxRxAmpduFactor : AmpduFactor
  wdnHead : List Nat
  wdn : Nat → WdnNetInfo
  barspParm : AddBaParm
  bareqParm : AddBaParm
  baCreating : Bool

def wfWdnFindInfo (nic : BaNic) (mac : MacAddr) : Option Nat :=
  nic.wdnHead.find? fun id => decide ((nic.wdn id).mac = mac)

def BaNic.setWdn (nic : BaNic) (id : Nat) (wdn : WdnNetInfo) : BaNic :=
  { nic with wdn := Function.update nic.wdn id wdn }

theorem wfWdnFindInfo_setWdn {nic : BaNic} {pwdn : Nat} {wdn : WdnNetInfo}
    (same : wdn.mac = (nic.wdn pwdn).mac) (mac : MacAddr) :
    wfWdnFindInfo (nic.setWdn pwdn wdn) mac = wfWdnFindInfo nic mac := by
  have macs (id : Nat) : ((nic.setWdn pwdn wdn).wdn id).mac = (nic.wdn id).mac := by
    unfold BaNic.setWdn
    by_cases own : id = pwdn
    · subst own
      simpa using same
    · simp [own]
  unfold wfWdnFindInfo
  simp only [macs]
  rfl

structure ActionFrame where
  addr1 : MacAddr
  addr2 : MacAddr
  addr3 : MacAddr
  category : UInt8
  actionField : UInt8
  body : List UInt8
  deriving DecidableEq, Repr

/-! ## Building -/

def addbaRespParaSet (barsp : AddBaParm) : UInt16 :=
  let paraSet := barsp.param
  let paraSet := paraSet &&& ~~~0x003C
  let paraSet := paraSet ||| ((barsp.tid <<< 2) &&& 0x003C).toUInt16
  let paraSet := paraSet &&& ~~~0xFFC0
  let paraSet := paraSet ||| ((barsp.size.toUInt16 <<< 6) &&& 0xFFC0)
  paraSet &&& ~~~0x0001

def addbaReqParaSet (bareq : AddBaParm) : UInt16 :=
  ((0x1002 : UInt32) ||| ((bareq.tid &&& 0xf) <<< 2)).toUInt16

def delbaParaSet (barsp : AddBaParm) (initiator : UInt8) : UInt16 :=
  ((barsp.tid <<< 12) &&& 0xF000).toUInt16 |||
    ((initiator.toUInt16 <<< 11) &&& 0x0800)

def nextDialog (dialogToken : UInt8) : UInt8 :=
  let dialog := dialogToken + 1
  if 7 < dialog then 1 else dialog

/-- The first number is not reduced, and sixteen bits cut off what is over. -/
def startSeq (wdn : WdnNetInfo) (tid : UInt8) : UInt16 := (wdn.txseqTid tid &&& 0xfff) + 1

/-- The fields behind category and action, and what building them records. -/
def baFields (nic : BaNic) (pwdn : Nat) : BaAction → BaNic × List UInt8
  | .addbaResp =>
      let barsp := nic.barspParm
      (nic, barsp.dialog :: (le16 barsp.status ++ le16 (addbaRespParaSet barsp) ++
        le16 barsp.timeout))
  | .addbaReq =>
      let bareq := nic.bareqParm
      let wdn := nic.wdn pwdn
      let tid := bareq.tid.toUInt8
      let dialog := nextDialog (wdn.dialogToken tid)
      let start := startSeq wdn tid
      let wdn := { wdn with
        dialogToken := Function.update wdn.dialogToken tid dialog
        baStartingSeqctrl := Function.update wdn.baStartingSeqctrl tid start }
      ({ nic.setWdn pwdn wdn with baCreating := true },
        dialog :: (le16 (addbaReqParaSet bareq) ++ le16 5000 ++ le16 (start <<< 4)))
  | .delba =>
      let barsp := nic.barspParm
      (nic, le16 (delbaParaSet barsp 0) ++ le16 barsp.status)

/-- Whether a transmit buffer is there and `wf_nic_mgmt_frame_xmit` succeeds. -/
structure XmitOutcome where
  extbuf : Bool
  sent : Bool
  deriving DecidableEq, Repr

/-- The frame that goes out; a negative result is `none`. -/
def wfActionFrameBaToIssue (nic : BaNic) (action : BaAction) (xmit : XmitOutcome) :
    BaNic × Option ActionFrame :=
  match wfWdnFindInfo nic nic.curBssid with
  | none => (nic, none)
  | some pwdn =>
      if xmit.extbuf then
        let built := baFields nic pwdn action
        (built.1, if xmit.sent then some {
          addr1 := (nic.wdn pwdn).mac
          addr2 := nic.localAddr
          addr3 := (nic.wdn pwdn).bssid
          category := categoryBack
          actionField := action.code
          body := built.2 } else none)
      else (nic, none)

/-! ## Reading -/

def getLe16 (body : List UInt8) (i : Nat) : UInt16 :=
  ofLe16 (body.getD i 0) (body.getD (i + 1) 0)

/-- `BIT(tid)` in a bitmap of one byte. -/
def tidBit (tid : UInt16) : UInt8 := ((1 : UInt32) <<< tid.toUInt32).toUInt8

/-- What a request is read as.  The cast to a byte comes before the shift. -/
def addbaRequest (body : List UInt8) : AddBaParm :=
  let param := getLe16 body 1
  { dialog := body.getD 0 0
    param
    tid := ((param &&& 0x3c) >>> 2).toUInt32
    policy := ((param &&& 0x2) >>> 1).toUInt8
    size := (param &&& 0x1fc0).toUInt8 >>> 6
    timeout := getLe16 body 3
    startSeq := (getLe16 body 5 >>> 4).toUInt32
    status := 0 }

def getRxAmpduSize (nic : BaNic) : UInt8 :=
  match nic.maxRxAmpduFactor with
  | .k64 => 64
  | .k32 => 32
  | .k16 => 16
  | .k8 => 8
  | .other => 64

/-- `action_frame_add_ba_response`: what is handed to the MLME for the answer. -/
def actionFrameAddBaResponse (nic : BaNic) (barsp : AddBaParm) : AddBaParm :=
  { barsp with size := getRxAmpduSize nic }

/-- The local variables that `action_frame_block_ack` reads a frame into, and what it
hands on. -/
inductive BlockAckRead where
  | request (barsp handed : AddBaParm)
  | apRequest
  | response (status tid : UInt16)
  | deletion (initiator : Bool) (tid reasonCode : UInt16)
  | nothing
  deriving DecidableEq, Repr

def readAddbaReq (nic : BaNic) (body : List UInt8) : BaNic × BlockAckRead :=
  match nic.workMode with
  | .infra =>
      let barsp := addbaRequest body
      (nic, .request barsp (actionFrameAddBaResponse nic barsp))
  | .master => (nic, .apRequest)
  | _ => (nic, .nothing)

def readAddbaResp (nic : BaNic) (pwdn : Nat) (body : List UInt8) : BaNic × BlockAckRead :=
  let wdn := nic.wdn pwdn
  let status := getLe16 body 1
  let tid := ((body.getD 3 0 >>> 2) &&& 0x7).toUInt16
  let wdn :=
    if status = 0 then { wdn with
      aggEnableBitmap := wdn.aggEnableBitmap ||| tidBit tid
      candidateTidBitmap := wdn.candidateTidBitmap &&& ~~~tidBit tid
      txAmsduEnable := wdn.txAmsduEnable || body.getD 3 0 &&& 1 != 0 }
    else { wdn with aggEnableBitmap := wdn.aggEnableBitmap &&& ~~~tidBit tid }
  ({ nic.setWdn pwdn wdn with baCreating := false }, .response status tid)

/-- The parameters are taken from the first of their two bytes. -/
def readDelba (nic : BaNic) (pwdn : Nat) (body : List UInt8) : BaNic × BlockAckRead :=
  let wdn := nic.wdn pwdn
  let tid := ((body.getD 0 0 >>> 4) &&& 0x0f).toUInt16
  if body.getD 0 0 &&& 0x08 = 0 then
    let wdn := { wdn with
      aggEnableBitmap := wdn.aggEnableBitmap &&& ~~~tidBit tid
      candidateTidBitmap := wdn.candidateTidBitmap &&& ~~~tidBit tid }
    (nic.setWdn pwdn wdn, .deletion false tid (getLe16 body 2))
  else (nic, .deletion true tid 0)

def actionFrameBlockAck (nic : BaNic) (pwdn : Nat) (frame : ActionFrame) :
    BaNic × BlockAckRead :=
  if frame.actionField = BaAction.addbaReq.code then readAddbaReq nic frame.body
  else if frame.actionField = BaAction.addbaResp.code then readAddbaResp nic pwdn frame.body
  else if frame.actionField = BaAction.delba.code then readDelba nic pwdn frame.body
  else (nic, .nothing)

/-! ## Round trips -/

section Fields

variable {tid : UInt32}

theorem tid_eq_ofNat (small : tid < 16) : ∃ n : Fin 16, tid = UInt32.ofNat n := by
  have bound : tid.toNat < 16 := UInt32.lt_iff_toNat_lt.mp small
  exact ⟨⟨tid.toNat, bound⟩, by simp⟩

theorem addbaReqParaSet_fields {bareq : AddBaParm} (small : bareq.tid < 16) :
    ((addbaReqParaSet bareq &&& 0x3c) >>> 2).toUInt32 = bareq.tid ∧
      ((addbaReqParaSet bareq &&& 0x2) >>> 1).toUInt8 = 1 ∧
      (addbaReqParaSet bareq &&& 0x1fc0).toUInt8 >>> 6 = 0 ∧
      (addbaReqParaSet bareq &&& 0x0002) >>> 1 = 1 ∧
      (addbaReqParaSet bareq &&& 0xFFC0) >>> 6 = 64 := by
  unfold addbaReqParaSet
  obtain ⟨n, same⟩ := tid_eq_ofNat small
  rw [same]
  clear same small
  revert n
  decide

theorem delbaParaSet_low {barsp : AddBaParm} (small : barsp.tid < 16) :
    UInt8.ofNat (delbaParaSet barsp 0).toNat = 0 := by
  unfold delbaParaSet
  obtain ⟨n, same⟩ := tid_eq_ofNat small
  rw [same]
  clear same small
  revert n
  decide

theorem addbaRespParaSet_tid (barsp : AddBaParm) :
    addbaRespParaSet barsp &&& (0x3c : UInt16) =
      (barsp.tid <<< 2).toUInt16 &&& (0x3c : UInt16) := by
  unfold addbaRespParaSet
  dsimp only
  rw [UInt32.toUInt16_and, UInt16.and_assoc,
    show (~~~0x0001 &&& 0x3c : UInt16) = 0x3c by decide, field_kept _ _ (by decide)]
  exact field_replaced barsp.param (barsp.tid <<< 2).toUInt16 0x3c

/-- The third bit of the mask that a response is read with is missing. -/
theorem addbaRespParaSet_read {barsp : AddBaParm} (small : barsp.tid < 16) :
    ((UInt8.ofNat (addbaRespParaSet barsp).toNat >>> 2) &&& 0x7).toUInt16.toUInt32 =
      barsp.tid &&& 0x7 := by
  have field : UInt8.ofNat (addbaRespParaSet barsp).toNat &&& (0x1c : UInt8) =
      ((barsp.tid <<< 2).toUInt16 &&& 0x1c).toUInt8 := by
    change (addbaRespParaSet barsp).toUInt8 &&& (0x1c : UInt8) = _
    have whole := congrArg (fun word : UInt16 => (word &&& 0x1c).toUInt8)
      (addbaRespParaSet_tid barsp)
    simp only [UInt16.and_assoc, show (0x3c &&& 0x1c : UInt16) = 0x1c by decide] at whole
    rw [← whole, UInt16.toUInt8_and]
    rfl
  rw [show (0x7 : UInt8) = (0x1c : UInt8) >>> 2 by decide, ← UInt8.shiftRight_and, field]
  obtain ⟨n, same⟩ := tid_eq_ofNat small
  rw [same]
  clear same small field
  revert n
  decide

theorem startSeq_read (wdn : WdnNetInfo) (tid : UInt8) :
    (startSeq wdn tid <<< 4) >>> 4 = (wdn.txseqTid tid + 1) &&& 0xFFF := by
  unfold startSeq
  have low := Rx.low12_toNat (wdn.txseqTid tid)
  apply UInt16.toNat_inj.mp
  rw [Rx.low12_toNat]
  simp [low, Nat.shiftLeft_eq, Nat.shiftRight_eq_div_pow]
  omega

end Fields

/-- The bit of a TID in a bitmap. -/
def hasTid (bitmap : UInt8) (tid : Nat) : Bool := bitmap.toBitVec.getLsbD tid

section Bitmaps

variable {tid : UInt16} (small : tid < 8) (bitmap : UInt8) (i : Nat)

include small

theorem hasTid_tidBit : hasTid (tidBit tid) i = decide (i = tid.toNat) := by
  have bound : tid.toNat < 8 := UInt16.lt_iff_toNat_lt.mp small
  have power : ∀ n : Fin 8, (tidBit (UInt16.ofNat n)).toBitVec = BitVec.twoPow 8 n := by
    decide
  have own := power ⟨tid.toNat, bound⟩
  simp only [UInt16.ofNat_toNat] at own
  unfold hasTid
  rw [own, BitVec.getLsbD_twoPow]
  simp [bound, eq_comm]

theorem hasTid_set :
    hasTid (bitmap ||| tidBit tid) i = if i = tid.toNat then true else hasTid bitmap i := by
  have bit := hasTid_tidBit small i
  unfold hasTid at bit ⊢
  rw [UInt8.toBitVec_or, BitVec.getLsbD_or, bit]
  by_cases own : i = tid.toNat <;> simp [own]

theorem hasTid_clear :
    hasTid (bitmap &&& ~~~tidBit tid) i =
      if i = tid.toNat then false else hasTid bitmap i := by
  have bit := hasTid_tidBit small i
  unfold hasTid at bit ⊢
  rw [UInt8.toBitVec_and, UInt8.toBitVec_not, BitVec.getLsbD_and, BitVec.getLsbD_not, bit]
  by_cases own : i = tid.toNat
  · simp [own]
  · by_cases inside : i < 8
    · simp [own, inside]
    · rw [BitVec.getLsbD_of_ge _ i (by omega)]
      simp

end Bitmaps

section Reads

variable {nic : BaNic} {pwdn : Nat}

/-- Everything but the buffer size of a request is read as it was sent. -/
theorem addbaRequest_issued (small : nic.bareqParm.tid < 16) :
    addbaRequest (baFields nic pwdn .addbaReq).2 =
      { dialog := nextDialog ((nic.wdn pwdn).dialogToken nic.bareqParm.tid.toUInt8)
        param := addbaReqParaSet nic.bareqParm
        tid := nic.bareqParm.tid
        policy := 1
        size := 0
        timeout := 5000
        startSeq :=
          (((nic.wdn pwdn).txseqTid nic.bareqParm.tid.toUInt8 + 1) &&& 0xFFF).toUInt32
        status := 0 } := by
  obtain ⟨tid, policy, size, -, -⟩ := addbaReqParaSet_fields small
  have param : getLe16 (baFields nic pwdn .addbaReq).2 1 = addbaReqParaSet nic.bareqParm :=
    ofLe16_toNat _
  have timeout : getLe16 (baFields nic pwdn .addbaReq).2 3 = 5000 := ofLe16_toNat _
  have start : getLe16 (baFields nic pwdn .addbaReq).2 5 =
      startSeq (nic.wdn pwdn) nic.bareqParm.tid.toUInt8 <<< 4 := ofLe16_toNat _
  unfold addbaRequest
  dsimp only
  rw [param, timeout, start, tid, policy, size, startSeq_read]
  rfl

end Reads

/-- A sequence number is the one that `tx_mac_hdr_build` gives to the next frame. -/
def IsNextSeqnum (wdn : WdnNetInfo) (tid : UInt32) (seqnum : UInt32) : Prop :=
  ∀ (nic nic' : Tx.TxNic) (frame built : Tx.XmitFrame) (msdu : List UInt8) (hdr : Nat)
    (mem mem' : Mem), nic.wdn frame.pwdn = wdn.xmit → frame.priority = tid.toUInt8 →
    Tx.txMacHdrBuild nic frame msdu hdr mem = some (nic', built, mem') →
    seqnum = built.seqnum.toUInt32

/-- The bit of a TID in the two bitmaps follows the status, and no other bit moves. -/
def MarksTid (before after : WdnNetInfo) (tid : UInt32) (status : UInt16) : Prop :=
  ∀ i, hasTid after.aggEnableBitmap i =
      (if i = tid.toNat then decide (status = 0) else hasTid before.aggEnableBitmap i) ∧
    hasTid after.candidateTidBitmap i =
      if i = tid.toNat ∧ status = 0 then false else hasTid before.candidateTidBitmap i

/-- What is read of a request, the buffer size apart. -/
structure RequestRead (sender issuer : BaNic) (pwdn : Nat) (barsp : AddBaParm) :
    Prop where
  tid : barsp.tid = sender.bareqParm.tid
  policy : barsp.policy.toUInt16 = (addbaReqParaSet sender.bareqParm &&& 0x0002) >>> 1
  timeout : barsp.timeout = 5000
  start : IsNextSeqnum (issuer.wdn pwdn) barsp.tid barsp.startSeq

/-- What `reader` makes of a frame that `sender` built; `issuer` is the sender
afterwards, and `pwdn` the station that it built the frame for. -/
def Recovers (sender issuer : BaNic) (pwdn : Nat) (reader : BaNic) (peer : Nat)
    (frame : ActionFrame) (action : BaAction) : Prop :=
  match action, actionFrameBlockAck reader peer frame with
  | .addbaReq, (_, .request barsp _) =>
      RequestRead sender issuer pwdn barsp ∧
      barsp.size.toUInt16 = (addbaReqParaSet sender.bareqParm &&& 0xFFC0) >>> 6
  | .addbaResp, (reader', .response status tid) =>
      status = sender.barspParm.status ∧ tid.toUInt32 = sender.barspParm.tid ∧
      MarksTid (reader.wdn peer) (reader'.wdn peer) sender.barspParm.tid status
  | .delba, (_, .deletion initiator tid reasonCode) =>
      initiator = false ∧ tid.toUInt32 = sender.barspParm.tid ∧
      reasonCode = sender.barspParm.status
  | _, _ => False

def BaAction.tid (nic : BaNic) : BaAction → UInt32
  | .addbaReq => nic.bareqParm.tid
  | .addbaResp | .delba => nic.barspParm.tid

/-- The TIDs that survive the way there. -/
def BaAction.Carries : BaAction → UInt32 → Prop
  | .addbaReq, _ => False
  | .addbaResp, tid => tid < 8
  | .delba, tid => tid = 0

section RoundTrips

variable {sender : BaNic} {pwdn : Nat}

/-- The frame that is built for a station. -/
def baFrame (sender : BaNic) (pwdn : Nat) (action : BaAction) : ActionFrame where
  addr1 := (sender.wdn pwdn).mac
  addr2 := sender.localAddr
  addr3 := (sender.wdn pwdn).bssid
  category := categoryBack
  actionField := action.code
  body := (baFields sender pwdn action).2

theorem wfActionFrameBaToIssue_sent (action : BaAction)
    (found : wfWdnFindInfo sender sender.curBssid = some pwdn) :
    wfActionFrameBaToIssue sender action ⟨true, true⟩ =
      ((baFields sender pwdn action).1, some (baFrame sender pwdn action)) := by
  unfold wfActionFrameBaToIssue
  rw [found]
  rfl

theorem isNextSeqnum_counter (wdn : WdnNetInfo) (tid : UInt32) :
    IsNextSeqnum wdn tid ((wdn.txseqTid tid.toUInt8 + 1) &&& 0xFFF).toUInt32 := by
  intro nic nic' frame built msdu hdr mem mem' station priority built
  rw [(Tx.txMacHdrBuild_txseqTid built).1, station, priority]
  rfl

theorem requestRead_issued (small : sender.bareqParm.tid < 16) :
    RequestRead sender (baFields sender pwdn .addbaReq).1 pwdn
      (addbaRequest (baFields sender pwdn .addbaReq).2) := by
  obtain ⟨-, -, -, policy, -⟩ := addbaReqParaSet_fields small
  rw [addbaRequest_issued small]
  refine ⟨rfl, policy.symm, rfl, ?_⟩
  have next := isNextSeqnum_counter ((baFields sender pwdn .addbaReq).1.wdn pwdn)
    sender.bareqParm.tid
  simp only [baFields, BaNic.setWdn, Function.update_self] at next ⊢
  exact next

theorem not_recovers_addbaReq (reader : BaNic) (peer : Nat)
    (small : sender.bareqParm.tid < 16) :
    ¬ Recovers sender (baFields sender pwdn .addbaReq).1 pwdn reader peer
      (baFrame sender pwdn .addbaReq) .addbaReq := by
  obtain ⟨-, -, -, -, size⟩ := addbaReqParaSet_fields small
  have reads : actionFrameBlockAck reader peer (baFrame sender pwdn .addbaReq) =
      readAddbaReq reader (baFields sender pwdn .addbaReq).2 := rfl
  unfold Recovers
  rw [reads]
  unfold readAddbaReq
  cases reader.workMode with
  | infra =>
      rintro ⟨-, same⟩
      rw [addbaRequest_issued small, size] at same
      cases same
  | master | adhoc | other => exact id

theorem and_seven_eq_iff {tid : UInt32} (small : tid < 16) :
    tid &&& (0x7 : UInt32) = tid ↔ tid < 8 := by
  obtain ⟨n, same⟩ := tid_eq_ofNat small
  rw [same]
  clear same small
  revert n
  decide

theorem marksTid_written {wdn : WdnNetInfo} {status tid : UInt16} (short : tid < 8)
    (amsdu : Bool) :
    MarksTid wdn (if status = 0 then { wdn with
        aggEnableBitmap := wdn.aggEnableBitmap ||| tidBit tid
        candidateTidBitmap := wdn.candidateTidBitmap &&& ~~~tidBit tid
        txAmsduEnable := amsdu }
      else { wdn with aggEnableBitmap := wdn.aggEnableBitmap &&& ~~~tidBit tid })
      tid.toUInt32 status := by
  intro i
  rw [UInt16.toNat_toUInt32]
  by_cases accepted : status = 0
  · simp only [accepted, if_true, decide_true, and_true]
    exact ⟨hasTid_set short _ i, hasTid_clear short _ i⟩
  · simp only [accepted, if_false, decide_false, and_false]
    exact ⟨hasTid_clear short _ i, trivial⟩

theorem recovers_addbaResp_iff (reader : BaNic) (peer : Nat)
    (small : sender.barspParm.tid < 16) :
    Recovers sender (baFields sender pwdn .addbaResp).1 pwdn reader peer
      (baFrame sender pwdn .addbaResp) .addbaResp ↔ sender.barspParm.tid < 8 := by
  have status : getLe16 (baFields sender pwdn .addbaResp).2 1 = sender.barspParm.status :=
    ofLe16_toNat _
  have reads : actionFrameBlockAck reader peer (baFrame sender pwdn .addbaResp) =
      readAddbaResp reader peer (baFields sender pwdn .addbaResp).2 := rfl
  have tid : (((baFields sender pwdn .addbaResp).2.getD 3 0 >>> 2) &&&
      0x7).toUInt16.toUInt32 = sender.barspParm.tid &&& 0x7 := addbaRespParaSet_read small
  unfold Recovers
  rw [reads]
  unfold readAddbaResp
  dsimp only
  rw [status]
  generalize (((baFields sender pwdn .addbaResp).2.getD 3 0 >>> 2) &&& 0x7).toUInt16 = read
    at tid
  constructor
  · rintro ⟨-, same, -⟩
    exact and_seven_eq_iff small |>.mp (tid.symm.trans same)
  · intro short
    have same : read.toUInt32 = sender.barspParm.tid :=
      tid.trans ((and_seven_eq_iff small).mpr short)
    have bound : read < 8 := by
      rw [← same, UInt32.lt_iff_toNat_lt, UInt16.toNat_toUInt32] at short
      exact UInt16.lt_iff_toNat_lt.mpr short
    refine ⟨rfl, same, ?_⟩
    rw [← same]
    simp only [BaNic.setWdn, Function.update_self]
    exact marksTid_written bound _

theorem recovers_delba_iff (reader : BaNic) (peer : Nat)
    (small : sender.barspParm.tid < 16) :
    Recovers sender (baFields sender pwdn .delba).1 pwdn reader peer
      (baFrame sender pwdn .delba) .delba ↔ sender.barspParm.tid = 0 := by
  have low : (baFields sender pwdn .delba).2.getD 0 0 = 0 := delbaParaSet_low small
  have reason : getLe16 (baFields sender pwdn .delba).2 2 = sender.barspParm.status :=
    ofLe16_toNat _
  have reads : actionFrameBlockAck reader peer (baFrame sender pwdn .delba) =
      readDelba reader peer (baFields sender pwdn .delba).2 := rfl
  unfold Recovers
  rw [reads]
  unfold readDelba
  rw [low, reason, if_pos (by decide)]
  constructor
  · rintro ⟨-, tid, -⟩
    exact tid.symm
  · intro tid
    exact ⟨rfl, tid.symm, rfl⟩

end RoundTrips

theorem block_ack_recovered_iff {sender : BaNic} {pwdn : Nat} (action : BaAction)
    (reader : BaNic) (peer : Nat)
    (found : wfWdnFindInfo sender sender.curBssid = some pwdn)
    (small : action.tid sender < 16) :
    ∃ issuer frame, wfActionFrameBaToIssue sender action ⟨true, true⟩ =
        (issuer, some frame) ∧
      (Recovers sender issuer pwdn reader peer frame action ↔
        action.Carries (action.tid sender)) := by
  refine ⟨_, _, wfActionFrameBaToIssue_sent action found, ?_⟩
  cases action with
  | addbaReq => exact iff_false_intro (not_recovers_addbaReq reader peer small)
  | addbaResp => exact recovers_addbaResp_iff reader peer small
  | delba => exact recovers_delba_iff reader peer small

/-- A station that sends and reads its own frames. -/
def baExample (tid : UInt32) : BaNic where
  workMode := .infra
  localAddr := staAddr
  curBssid := apAddr
  maxRxAmpduFactor := .k64
  wdnHead := [0]
  wdn := fun _ => {
    mac := apAddr, bssid := apAddr, qosOption := true, htEnable := true, htOption := true
    ampduEnable := true, aggEnableBitmap := 0, candidateTidBitmap := 0
    txAmsduEnable := false, dialogToken := fun _ => 0, baEnableFlag := fun _ => false
    baStartedFlag := fun _ => false, baStartingSeqctrl := fun _ => 0
    txseqTid := fun _ => 0xfff }
  barspParm := { tid, dialog := 1, size := 64, timeout := 5000 }
  bareqParm := { tid }
  baCreating := false

theorem block_ack_recovered_iff_response :
    wfWdnFindInfo (baExample 5) apAddr = some 0 ∧ (5 : UInt32) < 16 ∧
      ∃ issuer frame, wfActionFrameBaToIssue (baExample 5) .addbaResp ⟨true, true⟩ =
          (issuer, some frame) ∧
        (Recovers (baExample 5) issuer 0 (baExample 5) 0 frame .addbaResp ↔
          BaAction.addbaResp.Carries 5) :=
  ⟨by decide, by decide,
    block_ack_recovered_iff .addbaResp (baExample 5) 0 (by decide) (by decide)⟩

/-- Answering for TID 9 opens TID 1, ending it ends TID 0, and the buffer size of every
request is read as zero. -/
theorem block_ack_misread :
    ((actionFrameBlockAck (baExample 9) 0 (baFrame (baExample 9) 0 .addbaResp)).2 =
        .response 0 1 ∧
      (actionFrameBlockAck (baExample 9) 0 (baFrame (baExample 9) 0 .delba)).2 =
        .deletion false 0 0) ∧
    ∀ action issuer frame, wfActionFrameBaToIssue (baExample 9) action ⟨true, true⟩ =
        (issuer, some frame) →
      ¬ Recovers (baExample 9) issuer 0 (baExample 9) 0 frame action := by
  refine ⟨by decide, ?_⟩
  intro action issuer frame issued
  have found : wfWdnFindInfo (baExample 9) (baExample 9).curBssid = some 0 := by decide
  cases (wfActionFrameBaToIssue_sent action found).symm.trans issued
  cases action with
  | addbaReq => exact not_recovers_addbaReq (baExample 9) 0 (by decide)
  | addbaResp =>
      rw [recovers_addbaResp_iff (baExample 9) 0 (by decide)]
      decide
  | delba =>
      rw [recovers_delba_iff (baExample 9) 0 (by decide)]
      decide

end Smartchip.Action
