import Smartchip.Mlme.KeepAlive
import Smartchip.Scan.Thread

/-!
# What is stored in a message

The senders of `nic/mlme.c`, `nic/scan.c`, `nic/adhoc.c` and `nic/lps.c`.  The value of a message
has the size that it was given when the queue was set up, and no sender asks for it.
-/

namespace Smartchip.Mlme

open Smartchip.Frame Smartchip.Utility Smartchip.Scan

namespace Payload

/-- A write to the value of a message, which has `room` bytes. -/
structure Store where
  room : Nat
  offset : Nat
  length : Nat

def Store.Fits (store : Store) : Prop := store.offset + store.length ≤ store.room

/-- The sizes of `mlme_msg_init`. -/
def valueSize : MaintainTag → Nat
  | .scanAbort | .addBaReq | .ibssLeave | .lps | .keepalive => 0
  | .connAbort | .deauth | .deassoc => 8
  | .p2p => 520
  | .scan => 424
  | .scanRsp => 36 + 768
  | .conn => 56
  | .addBaRsp => 24
  | .connIbss => 48
  | .ibssBeaconFrame => 36 + 768

/-- The sizes of `scan_msg_init`. -/
def scanValueSize : ScanTag → Nat
  | .abort => 0
  | .start => 388

/-- `pconnMsg` and `pscanMsg` are the tags of the messages that these point to. -/
structure PostNic where
  isUp : Bool
  cannotRun : Bool
  workMode : WorkMode
  brun : Bool
  pconnMsg : Option MaintainTag
  pscanMsg : Option MaintainTag
  mlme : MsgQue MaintainMsg
  scan : MsgQue ScanTag

structure Posted where
  ret : Int
  nic : PostNic
  stores : List Store

section Sending

variable {Msg : Type} [DecidableEq Msg]

/-- A message is taken, filled and pushed.  `_msg_push` returns 0. -/
def fill (urgency room : Msg → Nat) (que : MsgQue Msg) (hasTag : Msg → Bool)
    (fields : List (Nat × Nat)) : Option (MsgQue Msg × List Store) :=
  (wfMsgNew que hasTag).map fun (msg, que) =>
    (wfMsgPush urgency que msg, fields.map fun field => ⟨room msg, field.1, field.2⟩)

end Sending

def PostNic.refuse (nic : PostNic) (ret : Int) : Posted := ⟨ret, nic, []⟩

def PostNic.sendMlme (nic : PostNic) (tag : MaintainTag) (fails : Int)
    (fields : List (Nat × Nat)) : Posted :=
  match fill MaintainMsg.urgency (fun msg => valueSize msg.tag) nic.mlme (fun msg => msg.tag = tag)
      fields with
  | none => nic.refuse fails
  | some (mlme, stores) => ⟨0, { nic with mlme }, stores⟩

def PostNic.sendScan (nic : PostNic) (tag : ScanTag) (fails : Int)
    (fields : List (Nat × Nat)) : Posted :=
  match fill ScanTag.urgency scanValueSize nic.scan (fun msg => msg = tag) fields with
  | none => nic.refuse fails
  | some (scan, stores) => ⟨0, { nic with scan }, stores⟩

/-! ## The senders

Each field is given with its offset in the structure and its size. -/

def mlmeMsgSend (nic : PostNic) (tag : MaintainTag) (value : Bool) (len : UInt8) : Posted :=
  nic.sendMlme tag (-3) (if value ∧ len ≠ 0 then [(0, len.toNat)] else [])

/-- A sender that passes on the failure of `mlme_msg_send` with a code of its own. -/
def Posted.failing (posted : Posted) (fails : Int) : Posted :=
  { posted with ret := if posted.ret = 0 then 0 else fails }

def wfMlmeP2pMsg (nic : PostNic) (len : UInt32) : Posted :=
  nic.sendMlme .p2p (-4) [(0, 2), (4, 4), (8, len.toNat)]

def scanFields (ssidNum chNum : UInt8) : List (Nat × Nat) :=
  [(4, 4), (368, 1)] ++ (if ssidNum ≠ 0 then [(8, ssidNum.toNat * 40)] else []) ++
    [(420, 1)] ++ (if chNum ≠ 0 then [(369, chNum.toNat)] else []) ++ [(0, 4)]

def wfMlmeScanStart (nic : PostNic) (ssidNum chNum : UInt8) : Posted :=
  if nic.isUp then nic.sendMlme .scan (-4) (scanFields ssidNum chNum) else nic.refuse (-2)

def wfMlmeScanAbort (nic : PostNic) : Posted :=
  if nic.workMode ≠ .infra then nic.refuse (-2)
  else if nic.pscanMsg ≠ some .scan then nic.refuse (-3)
  else (mlmeMsgSend nic .scanAbort false 0).failing (-4)

def wfMlmeConnScanRsp (nic : PostNic) (pmgmt : Bool) (mgmtLen : UInt16) : Posted :=
  if ¬ pmgmt ∧ mgmtLen = 0 then nic.refuse (-1)
  else if ¬ nic.isUp then nic.refuse (-2)
  else if ¬ nic.brun then nic.refuse (-3)
  else nic.sendMlme .scanRsp (-4) [(0, mgmtLen.toNat)]

def wfMlmeConnAbort (nic : PostNic) : Posted :=
  if nic.workMode ≠ .infra then nic.refuse (-2)
  else if nic.pconnMsg ≠ some .conn then nic.refuse (-3)
  else (mlmeMsgSend nic .connAbort true 8).failing (-4)

/-- What `wf_mlme_conn_start` does before it takes a message. -/
def abortConn (nic : PostNic) : Posted :=
  let aborted := if nic.pconnMsg.isSome then wfMlmeConnAbort nic else nic.refuse 0
  let mlme := aborted.nic.mlme
  { aborted with
    nic := { aborted.nic with
      mlme := match mlme.pend.head? with
        | some msg => if msg.tag = .conn then wfMsgDel mlme msg else mlme
        | none => mlme } }

def connFields (length : UInt32) : List (Nat × Nat) :=
  [(0, 4), (8, 6)] ++
    (if length ≠ 0 then [(16, 40), (20 + length.toNat, 1)] else [(16, 4)]) ++ [(4, 4)]

/-- `pssid` is the length of the SSID, if there is one. -/
def wfMlmeConnStart (nic : PostNic) (bssid : Bool) (pssid : Option UInt32) : Posted :=
  if ¬ bssid ∧ pssid = none then nic.refuse (-1)
  else if ¬ nic.isUp then nic.refuse (-2)
  else
    let aborted := abortConn nic
    let posted := aborted.nic.sendMlme .conn (-3) (connFields (pssid.getD 0))
    { posted with stores := aborted.stores ++ posted.stores }

/-- `wf_mlme_deauth` and `wf_mlme_deassoc`. -/
def leave (nic : PostNic) (tag : MaintainTag) : Posted :=
  if ¬ nic.isUp then nic.refuse (-2)
  else if nic.workMode ≠ .infra then nic.refuse (-3)
  else (mlmeMsgSend nic tag true 8).failing (-4)

def wfMlmeDeauth (nic : PostNic) : Posted := leave nic .deauth

def wfMlmeDeassoc (nic : PostNic) : Posted := leave nic .deassoc

def wfMlmeAddBaReq (nic : PostNic) : Posted :=
  if nic.isUp then (mlmeMsgSend nic .addBaReq false 0).failing (-3) else nic.refuse (-2)

def wfMlmeAddBaRsp (nic : PostNic) (barspParm : Bool) : Posted :=
  if nic.isUp then (mlmeMsgSend nic .addBaRsp barspParm 24).failing (-3) else nic.refuse (-2)

def wfMlmeScanIbssStart (nic : PostNic) (pssid pch : Bool) : Posted :=
  if ¬ nic.isUp then nic.refuse (-2)
  else if ¬ pssid ∨ ¬ pch then nic.refuse (-3)
  else nic.sendMlme .connIbss (-5) [(4, 40), (44, 1), (0, 4)]

def wfAdhocLeaveIbssMsgSend (nic : PostNic) : Posted :=
  if nic.cannotRun then nic.refuse (-1)
  else if ¬ nic.isUp then nic.refuse (-2)
  else nic.sendMlme .ibssLeave (-4) []

def wfAdhocBcnMsgSend (nic : PostNic) (mgmtLen : UInt16) : Posted :=
  if nic.cannotRun then nic.refuse (-1)
  else if ¬ nic.isUp then nic.refuse (-2)
  else nic.sendMlme .ibssBeaconFrame (-3) [(0, mgmtLen.toNat)]

def wfLpsStart (nic : PostNic) : Posted :=
  if nic.isUp then nic.sendMlme .lps (-3) [(0, 1)] else nic.refuse (-2)

def startFields (ssids : Bool) (ssidNum : UInt8) (chs : Bool) (chNum : UInt8) :
    List (Nat × Nat) :=
  [(0, 4), (4, 6), (372, 1)] ++
    (if ssidNum ≠ 0 ∧ ssids then [(12, 360), (12, min ssidNum.toNat 9 * 40)] else []) ++
    -- `ch_num` is cut to the size of the map, the copy is not
    [(387, 1)] ++ (if chs ∧ chNum ≠ 0 then [(373, chNum.toNat)] else [])

def wfScanStart (nic : PostNic) (ssids : Bool) (ssidNum : UInt8) (chs : Bool) (chNum : UInt8) :
    Posted :=
  if nic.cannotRun then nic.refuse (-1)
  else if ¬ nic.isUp then nic.refuse (-2)
  else nic.sendScan .start (-3) (startFields ssids ssidNum chs chNum)

def wfScanStop (nic : PostNic) : Posted :=
  if nic.cannotRun then nic.refuse (-1)
  else if ¬ nic.brun then nic.refuse 0
  else nic.sendScan .abort (-2) []

inductive Call where
  | msgSend (tag : MaintainTag) (value : Bool) (len : UInt8)
  | p2pMsg (len : UInt32)
  | scanStart (ssidNum chNum : UInt8)
  | scanAbort
  | connScanRsp (pmgmt : Bool) (mgmtLen : UInt16)
  | connAbort
  | connStart (bssid : Bool) (pssid : Option UInt32)
  | deauth
  | deassoc
  | addBaReq
  | addBaRsp (barspParm : Bool)
  | scanIbssStart (pssid pch : Bool)
  | adhocLeave
  | adhocBcn (mgmtLen : UInt16)
  | lpsStart
  | wfScanStart (ssids : Bool) (ssidNum : UInt8) (chs : Bool) (chNum : UInt8)
  | wfScanStop

def PostNic.call (nic : PostNic) : Call → Posted
  | .msgSend tag value len => mlmeMsgSend nic tag value len
  | .p2pMsg len => wfMlmeP2pMsg nic len
  | .scanStart ssidNum chNum => wfMlmeScanStart nic ssidNum chNum
  | .scanAbort => wfMlmeScanAbort nic
  | .connScanRsp pmgmt mgmtLen => wfMlmeConnScanRsp nic pmgmt mgmtLen
  | .connAbort => wfMlmeConnAbort nic
  | .connStart bssid pssid => wfMlmeConnStart nic bssid pssid
  | .deauth => wfMlmeDeauth nic
  | .deassoc => wfMlmeDeassoc nic
  | .addBaReq => wfMlmeAddBaReq nic
  | .addBaRsp barspParm => wfMlmeAddBaRsp nic barspParm
  | .scanIbssStart pssid pch => wfMlmeScanIbssStart nic pssid pch
  | .adhocLeave => wfAdhocLeaveIbssMsgSend nic
  | .adhocBcn mgmtLen => wfAdhocBcnMsgSend nic mgmtLen
  | .lpsStart => wfLpsStart nic
  | .wfScanStart ssids ssidNum chs chNum => wfScanStart nic ssids ssidNum chs chNum
  | .wfScanStop => wfScanStop nic

/-! ## What is to hold -/

/-- The free queue may have its messages in another order. -/
structure Undone (nic nic' : PostNic) : Prop where
  same : nic' = { nic with
    mlme := { nic.mlme with free := nic'.mlme.free }
    scan := { nic.scan with free := nic'.scan.free } }
  mlme : nic'.mlme.free.Perm nic.mlme.free
  scan : nic'.scan.free.Perm nic.scan.free

def Safe (nic : PostNic) (posted : Posted) : Prop :=
  (∀ store ∈ posted.stores, store.Fits) ∨ (posted.ret ≠ 0 ∧ Undone nic posted.nic)

/-! ## When it does -/

def HasFree (nic : PostNic) (tag : MaintainTag) : Prop := ∃ msg ∈ nic.mlme.free, msg.tag = tag

/-- The call comes to the message that it fills. -/
def Fills (nic : PostNic) : Call → Prop
  | .msgSend tag _ _ => HasFree nic tag
  | .p2pMsg _ => HasFree nic .p2p
  | .scanStart _ _ => nic.isUp ∧ HasFree nic .scan
  | .connScanRsp pmgmt mgmtLen =>
      (pmgmt ∨ mgmtLen ≠ 0) ∧ nic.isUp ∧ nic.brun ∧ HasFree nic .scanRsp
  | .connStart bssid pssid =>
      (bssid ∨ pssid ≠ none) ∧ nic.isUp ∧ HasFree (abortConn nic).nic .conn
  | .adhocBcn _ => ¬ nic.cannotRun ∧ nic.isUp ∧ HasFree nic .ibssBeaconFrame
  | .lpsStart => nic.isUp ∧ HasFree nic .lps
  | .wfScanStart _ _ _ _ => ¬ nic.cannotRun ∧ nic.isUp ∧ .start ∈ nic.scan.free
  | .scanAbort | .connAbort | .deauth | .deassoc | .addBaReq | .addBaRsp _ | .scanIbssStart _ _
  | .adhocLeave | .wfScanStop => False

/-- What the caller gives fits the message. -/
def Bounded : Call → Prop
  | .msgSend tag value len => value → len.toNat ≤ valueSize tag
  | .p2pMsg len => len.toNat ≤ 512
  | .scanStart ssidNum chNum => ssidNum.toNat ≤ 10 ∧ chNum.toNat ≤ 55
  | .connScanRsp _ mgmtLen => mgmtLen.toNat ≤ 804
  | .connStart _ pssid => ∀ length ∈ pssid, length.toNat ≤ 35
  | .adhocBcn mgmtLen => mgmtLen.toNat ≤ 804
  | .lpsStart => False
  | .wfScanStart _ _ chs chNum => chs → chNum.toNat ≤ 15
  | .scanAbort | .connAbort | .deauth | .deassoc | .addBaReq | .addBaRsp _ | .scanIbssStart _ _
  | .adhocLeave | .wfScanStop => True

section Proofs

variable {nic : PostNic} {tag : MaintainTag} {fails ret : Int} {fields : List (Nat × Nat)}

@[simp] theorem refuse_safe (nic : PostNic) (ret : Int) : Safe nic (nic.refuse ret) := by
  left
  simp [PostNic.refuse]

/-- The tests of a sender. -/
theorem safe_ite {p : Prop} [Decidable p] {first second : Posted} :
    Safe nic (if p then first else second) ↔
      (p → Safe nic first) ∧ (¬ p → Safe nic second) := by
  by_cases here : p <;> simp [here]

@[simp] theorem failing_safe (posted : Posted) (some : fails ≠ 0) :
    Safe nic (posted.failing fails) ↔ Safe nic posted := by
  by_cases zero : posted.ret = 0 <;> simp [Safe, Posted.failing, zero, some]

theorem fill_none {Msg : Type} [DecidableEq Msg] {urgency room : Msg → Nat} {que : MsgQue Msg}
    {hasTag : Msg → Bool} :
    fill urgency room que hasTag fields = none ↔ ∀ msg ∈ que.free, ¬ hasTag msg = true := by
  simp [fill, wfMsgNew]

theorem fill_some {Msg : Type} [DecidableEq Msg] {urgency room : Msg → Nat} {que : MsgQue Msg}
    {hasTag : Msg → Bool} {filled : MsgQue Msg × List Store}
    (fills : fill urgency room que hasTag fields = some filled) :
    ∃ msg ∈ que.free, hasTag msg = true ∧
      filled.2 = fields.map fun field => ⟨room msg, field.1, field.2⟩ := by
  unfold fill at fills
  rw [Option.map_eq_some_iff] at fills
  obtain ⟨new, fresh, rfl⟩ := fills
  obtain ⟨free, tagged, -⟩ := wfMsgNew_some fresh
  exact ⟨new.1, free, tagged, rfl⟩

/-- All that is stored, when the call does not fail. -/
theorem safe_of_stores {posted : Posted} {size : Nat} (done : posted.ret = 0)
    (stores : posted.stores = fields.map fun field => ⟨size, field.1, field.2⟩) :
    Safe nic posted ↔ ∀ field ∈ fields, field.1 + field.2 ≤ size := by
  rw [Safe, stores, List.forall_mem_map]
  simp [done, Store.Fits]

theorem sendMlme_cases (nic : PostNic) (tag : MaintainTag) (fails : Int)
    (fields : List (Nat × Nat)) :
    (¬ HasFree nic tag ∧ nic.sendMlme tag fails fields = nic.refuse fails) ∨
    (HasFree nic tag ∧ (nic.sendMlme tag fails fields).ret = 0 ∧
      (nic.sendMlme tag fails fields).stores =
        fields.map fun field => ⟨valueSize tag, field.1, field.2⟩) := by
  unfold PostNic.sendMlme HasFree
  cases fills : fill MaintainMsg.urgency (fun msg => valueSize msg.tag) nic.mlme
      (fun msg => msg.tag = tag) fields with
  | none => exact .inl ⟨by simpa using fill_none.mp fills, rfl⟩
  | some filled =>
      obtain ⟨msg, free, tagged, stores⟩ := fill_some fills
      have same : msg.tag = tag := of_decide_eq_true tagged
      exact .inr ⟨⟨msg, free, same⟩, rfl, same ▸ stores⟩

theorem sendMlme_safe :
    Safe nic (nic.sendMlme tag fails fields) ↔
      (HasFree nic tag → ∀ field ∈ fields, field.1 + field.2 ≤ valueSize tag) := by
  rcases sendMlme_cases nic tag fails fields with ⟨none, refused⟩ | ⟨some, done, stores⟩
  · simp [refused, none]
  · simp only [safe_of_stores done stores, some, true_imp_iff]

theorem sendScan_safe {tag : ScanTag} :
    Safe nic (nic.sendScan tag fails fields) ↔
      (tag ∈ nic.scan.free → ∀ field ∈ fields, field.1 + field.2 ≤ scanValueSize tag) := by
  unfold PostNic.sendScan
  cases fills : fill ScanTag.urgency scanValueSize nic.scan (fun msg => msg = tag) fields with
  | none =>
      have none : tag ∉ nic.scan.free := fun free => fill_none.mp fills tag free (by simp)
      simp [none]
  | some filled =>
      obtain ⟨msg, free, tagged, stores⟩ := fill_some fills
      obtain rfl : msg = tag := of_decide_eq_true tagged
      simp only [free, true_imp_iff]
      exact safe_of_stores rfl stores

theorem mlmeMsgSend_safe {value : Bool} {len : UInt8} :
    Safe nic (mlmeMsgSend nic tag value len) ↔
      (HasFree nic tag → value → len.toNat ≤ valueSize tag) := by
  rw [mlmeMsgSend, sendMlme_safe]
  cases value with
  | false => simp
  | true =>
      by_cases zero : len = 0
      · simp [zero]
      · simp [zero]

/-- What goes with the message of a request to leave, and with the abort of a connection. -/
theorem mlmeMsgSend_fits {value : Bool} {len : UInt8} (fits : len.toNat ≤ valueSize tag) :
    Safe nic (mlmeMsgSend nic tag value len) :=
  mlmeMsgSend_safe.mpr fun _ _ => fits

theorem leave_safe (eight : valueSize tag = 8) : Safe nic (leave nic tag) := by
  have fits : Safe nic (mlmeMsgSend nic tag true 8) := mlmeMsgSend_fits (by rw [eight]; decide)
  unfold leave
  split_ifs <;> simp [fits]

theorem connAbort_stores : ∀ store ∈ (wfMlmeConnAbort nic).stores, store.Fits := by
  unfold wfMlmeConnAbort
  split_ifs
  · simp [PostNic.refuse]
  · simp [PostNic.refuse]
  · change ∀ store ∈ (mlmeMsgSend nic .connAbort true 8).stores, store.Fits
    rcases sendMlme_cases nic .connAbort (-3) [(0, 8)] with ⟨-, refused⟩ | ⟨-, -, stores⟩
    · change ∀ store ∈ (nic.sendMlme .connAbort (-3) [(0, 8)]).stores, store.Fits
      simp [refused, PostNic.refuse]
    · change ∀ store ∈ (nic.sendMlme .connAbort (-3) [(0, 8)]).stores, store.Fits
      simp [stores, Store.Fits, valueSize]

theorem abortConn_stores : ∀ store ∈ (abortConn nic).stores, store.Fits := by
  unfold abortConn
  dsimp only
  split_ifs
  · exact connAbort_stores
  · simp [PostNic.refuse]

theorem connFields_fit (pssid : Option UInt32) :
    (∀ field ∈ connFields (pssid.getD 0), field.1 + field.2 ≤ valueSize .conn) ↔
      ∀ length ∈ pssid, length.toNat ≤ 35 := by
  cases pssid with
  | none => simp [connFields, valueSize]
  | some length =>
      by_cases zero : length = 0
      · simp [connFields, valueSize, zero]
      · simp [connFields, valueSize, zero]
        omega

/-- The abort of the old connection fits, so what is filled behind it decides. -/
theorem connFilled_safe (pssid : Option UInt32) :
    Safe nic
        { (abortConn nic).nic.sendMlme .conn (-3) (connFields (pssid.getD 0)) with
          stores := (abortConn nic).stores ++
            ((abortConn nic).nic.sendMlme .conn (-3) (connFields (pssid.getD 0))).stores } ↔
      (HasFree (abortConn nic).nic .conn → ∀ length ∈ pssid, length.toNat ≤ 35) := by
  have before := @abortConn_stores nic
  rw [← connFields_fit]
  rcases sendMlme_cases (abortConn nic).nic .conn (-3) (connFields (pssid.getD 0)) with
    ⟨none, refused⟩ | ⟨some, done, stores⟩
  · simp only [none, false_imp_iff, iff_true]
    left
    simpa only [refused, PostNic.refuse, List.append_nil] using before
  · simp only [some, true_imp_iff]
    rw [← @safe_of_stores nic _ _ _ done stores, Safe, Safe]
    simp only [done, ne_eq, not_true_eq_false, false_and, or_false, List.forall_mem_append]
    exact and_iff_right before

theorem scanFields_fit (ssidNum chNum : UInt8) :
    (∀ field ∈ scanFields ssidNum chNum, field.1 + field.2 ≤ valueSize .scan) ↔
      ssidNum.toNat ≤ 10 ∧ chNum.toNat ≤ 55 := by
  have ssids : (∀ field ∈ if ssidNum ≠ 0 then [(8, ssidNum.toNat * 40)] else [],
      field.1 + field.2 ≤ 424) ↔ ssidNum.toNat ≤ 10 := by
    by_cases zero : ssidNum = 0
    · simp [zero]
    · simp [zero]
      omega
  have chs : (∀ field ∈ if chNum ≠ 0 then [(369, chNum.toNat)] else [],
      field.1 + field.2 ≤ 424) ↔ chNum.toNat ≤ 55 := by
    by_cases zero : chNum = 0
    · simp [zero]
    · simp [zero]
      omega
  simp only [scanFields, List.forall_mem_append, valueSize, ssids, chs]
  simp

theorem startFields_fit (ssids : Bool) (ssidNum : UInt8) (chs : Bool) (chNum : UInt8) :
    (∀ field ∈ startFields ssids ssidNum chs chNum,
      field.1 + field.2 ≤ scanValueSize .start) ↔ (chs = true → chNum.toNat ≤ 15) := by
  have front : ∀ field ∈ if ssidNum ≠ 0 ∧ ssids then
      [(12, 360), (12, min ssidNum.toNat 9 * 40)] else [], field.1 + field.2 ≤ 388 := by
    split_ifs
    · simp
      omega
    · simp
  have map : (∀ field ∈ if chs ∧ chNum ≠ 0 then [(373, chNum.toNat)] else [],
      field.1 + field.2 ≤ 388) ↔ (chs = true → chNum.toNat ≤ 15) := by
    by_cases zero : chNum = 0
    · simp [zero]
    · cases chs with
      | false => simp
      | true =>
          simp [zero]
          omega
  simp only [startFields, List.forall_mem_append, scanValueSize, map]
  simpa using fun _ => front

/-- The stores stay inside, exactly when what the caller gives to a call that comes to fill a
message fits that message. -/
theorem payload_fits_iff (nic : PostNic) (call : Call) :
    Safe nic (nic.call call) ↔ (Fills nic call → Bounded call) := by
  cases call with
  | msgSend tag value len => exact mlmeMsgSend_safe
  | connStart bssid pssid =>
      rw [PostNic.call, wfMlmeConnStart, safe_ite, safe_ite]
      simp only [connFilled_safe, refuse_safe, Fills, Bounded]
      grind
  | p2pMsg len =>
      simp only [PostNic.call, wfMlmeP2pMsg, sendMlme_safe, Fills, Bounded, valueSize]
      simp
      grind
  | scanStart ssidNum chNum =>
      rw [PostNic.call, wfMlmeScanStart, safe_ite, sendMlme_safe, scanFields_fit]
      simp [Fills, Bounded]
  | connScanRsp pmgmt mgmtLen =>
      rw [PostNic.call, wfMlmeConnScanRsp, safe_ite, safe_ite, safe_ite, sendMlme_safe]
      simp [Fills, Bounded, valueSize]
      grind
  | adhocBcn mgmtLen =>
      rw [PostNic.call, wfAdhocBcnMsgSend, safe_ite, safe_ite, sendMlme_safe]
      simp [Fills, Bounded, valueSize]
  | lpsStart =>
      rw [PostNic.call, wfLpsStart, safe_ite, sendMlme_safe]
      simp [Fills, Bounded, valueSize]
  | wfScanStart ssids ssidNum chs chNum =>
      rw [PostNic.call, wfScanStart, safe_ite, safe_ite, sendScan_safe, startFields_fit]
      simp [Fills, Bounded]
  | deauth =>
      simp only [Fills, false_imp_iff, iff_true]
      exact leave_safe rfl
  | deassoc =>
      simp only [Fills, false_imp_iff, iff_true]
      exact leave_safe rfl
  | connAbort =>
      simp only [Fills, false_imp_iff, iff_true]
      exact .inl connAbort_stores
  | scanAbort =>
      simp [PostNic.call, wfMlmeScanAbort, safe_ite, mlmeMsgSend_safe, Fills]
  | addBaReq =>
      simp [PostNic.call, wfMlmeAddBaReq, safe_ite, mlmeMsgSend_safe, Fills]
  | addBaRsp barspParm =>
      simp [PostNic.call, wfMlmeAddBaRsp, safe_ite, mlmeMsgSend_safe, Fills, valueSize]
  | scanIbssStart pssid pch =>
      simp [PostNic.call, wfMlmeScanIbssStart, safe_ite, sendMlme_safe, Fills, valueSize]
  | adhocLeave =>
      simp [PostNic.call, wfAdhocLeaveIbssMsgSend, safe_ite, sendMlme_safe, Fills]
  | wfScanStop =>
      simp [PostNic.call, wfScanStop, safe_ite, sendScan_safe, Fills]

/-- An interface that is up, with all of its messages free. -/
def freshNic : PostNic where
  isUp := true
  cannotRun := false
  workMode := .infra
  brun := false
  pconnMsg := none
  pscanMsg := none
  mlme := ⟨[], mlmeMessages⟩
  scan := ⟨[], [.abort, .start]⟩

/-- As many channels as `mlme_scan_t` holds. -/
theorem scan_start_channels : ¬ Safe freshNic (freshNic.call (.wfScanStart false 0 true 51)) := by
  rintro (fits | ⟨failed, -⟩)
  · have last := fits ⟨388, 373, 51⟩ (by
      rw [show (freshNic.call (.wfScanStart false 0 true 51)).stores =
        [⟨388, 0, 4⟩, ⟨388, 4, 6⟩, ⟨388, 372, 1⟩, ⟨388, 387, 1⟩, ⟨388, 373, 51⟩] from rfl]
      simp)
    exact absurd last (by simp [Store.Fits])
  · exact failed rfl

end Proofs

end Payload

end Smartchip.Mlme
