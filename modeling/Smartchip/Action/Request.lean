import Smartchip.Action.BlockAck
import Smartchip.Foundation.Run
import Smartchip.Utility.Message

/-!
# Asking for block-ack agreements

The transmit worker marks a TID and posts a message, and the MLME thread of the
connection takes the message and sends the request.  The message carries nothing: the TID
is in `bareq_parm`, which the two share.
-/

namespace Smartchip.Action

open Smartchip.Foundation Smartchip.Frame Smartchip.Utility

/-- A frame of the transmit worker.  Its priority is the top three bits of a byte. -/
structure BaFrame where
  bmcast : Bool
  priority : UInt8
  dataTag : Bool
  etherType : UInt16
  dhcpPkt : Bool
  small : priority < 8

/-- Where the worker is in `wf_action_frame_add_ba_request`: the next write is that of
`bareq_parm.tid`, of `ba_enable_flag`, or of the message queue. -/
inductive WorkerPc where
  | idle
  | marked (priority : UInt8)
  | posted (priority : UInt8)
  | flagged
  deriving DecidableEq, Repr

/-- Where the MLME thread is: it waits for a message, has one and waits for the
hardware, or has sent the request. -/
inductive MlmePc where
  | idle
  | lockWait
  | sent
  deriving DecidableEq, Repr

/-- `pwdn` is the station of the connection.  What went out is recorded in `issued`, and
in `unsent` whether sending failed. -/
structure AddBaSystem where
  nic : BaNic
  pwdn : Nat
  isUp : Bool
  baEnable : Bool
  que : MsgQue Nat
  worker : WorkerPc
  mlme : MlmePc
  issued : List ActionFrame
  unsent : Bool

def AddBaSystem.wdn (s : AddBaSystem) : WdnNetInfo := s.nic.wdn s.pwdn

def AddBaSystem.setWdn (s : AddBaSystem) (wdn : WdnNetInfo) : AddBaSystem :=
  { s with nic := s.nic.setWdn s.pwdn wdn }

/-! ## The worker -/

/-- The tests of `wf_action_frame_add_ba_request`. -/
def addBaWanted (wdn : WdnNetInfo) (frame : BaFrame) : Bool :=
  if frame.bmcast then false
  else if wdn.baEnableFlag frame.priority then false
  else if wdn.htOption && wdn.ampduEnable then
    let issued := (wdn.aggEnableBitmap.toUInt32 >>> frame.priority.toUInt32) &&& 0x1
    let issued :=
      issued ||| ((wdn.candidateTidBitmap.toUInt32 >>> frame.priority.toUInt32) &&& 0x1)
    issued == 0 && frame.dataTag && frame.etherType != 0x0806 &&
      frame.etherType != 0x888e && !frame.dhcpPkt
  else false

def markCandidate (s : AddBaSystem) (priority : UInt8) : AddBaSystem :=
  let wdn := { s.wdn with
    candidateTidBitmap := s.wdn.candidateTidBitmap ||| tidBit priority.toUInt16 }
  { s.setWdn wdn with worker := .marked priority }

def postTid (s : AddBaSystem) (priority : UInt8) : AddBaSystem :=
  let bareqParm := { s.nic.bareqParm with tid := priority.toUInt32 }
  { s with nic := { s.nic with bareqParm }, worker := .posted priority }

def raiseFlag (s : AddBaSystem) (priority : UInt8) : AddBaSystem :=
  let wdn := { s.wdn with
    baEnableFlag := Function.update s.wdn.baEnableFlag priority true }
  { s.setWdn wdn with worker := .flagged }

/-- The call, up to the first write; `tx_work` makes it with `ba_enable` only. -/
def callAddBa (s : AddBaSystem) (frame : BaFrame) : AddBaSystem :=
  if s.worker = .idle ∧ s.baEnable ∧ addBaWanted s.wdn frame then
    markCandidate s frame.priority
  else s

/-- The result is not looked at. -/
def wfMlmeAddBaReq (s : AddBaSystem) : AddBaSystem :=
  if s.isUp then
    match wfMsgNew s.que (fun _ => true) with
    | none => s
    | some (msg, que) => { s with que := wfMsgPush (fun _ => 0) que msg }
  else s

def workerStep (s : AddBaSystem) : AddBaSystem :=
  match s.worker with
  | .idle => s
  | .marked priority => postTid s priority
  | .posted priority => raiseFlag s priority
  | .flagged => { wfMlmeAddBaReq s with worker := .idle }

/-! ## The MLME thread -/

def consumeAddBa (s : AddBaSystem) : AddBaSystem :=
  if s.mlme = .idle then
    match wfMsgPop s.que with
    | none => s
    | some (msg, que) => { s with que := wfMsgDel que msg, mlme := .lockWait }
  else s

def recordIssue (s : AddBaSystem) (result : BaNic × Option ActionFrame) : AddBaSystem :=
  { s with
    nic := result.1
    mlme := .sent
    issued := s.issued ++ result.2.toList
    unsent := s.unsent || result.2.isNone }

def raiseStarted (s : AddBaSystem) : AddBaSystem :=
  let tid := s.nic.bareqParm.tid.toUInt8
  let wdn := { s.wdn with
    baStartedFlag := Function.update s.wdn.baStartedFlag tid true }
  { s.setWdn wdn with mlme := .idle }

/-- `core_conn_maintain_ba_req_thrd`, once it has the hardware. -/
def issueAddBa (s : AddBaSystem) (xmit : XmitOutcome) : AddBaSystem :=
  if s.mlme = .lockWait then
    if s.baEnable then recordIssue s (wfActionFrameBaToIssue s.nic .addbaReq xmit)
    else { s with mlme := .idle }
  else s

def startedAddBa (s : AddBaSystem) : AddBaSystem :=
  if s.mlme = .sent then raiseStarted s else s

inductive AddBaEvent where
  | call (frame : BaFrame)
  | worker
  | ndev (isUp : Bool)
  | consume
  | issue (xmit : XmitOutcome)
  | started

def addBaStep (s : AddBaSystem) : AddBaEvent → Option AddBaSystem
  | .call frame => some (callAddBa s frame)
  | .worker => some (workerStep s)
  | .ndev isUp => some { s with isUp }
  | .consume => some (consumeAddBa s)
  | .issue xmit => some (issueAddBa s xmit)
  | .started => some (startedAddBa s)

/-! ## What should be the same -/

def Marked (s : AddBaSystem) (tid : UInt8) : Prop :=
  hasTid s.wdn.candidateTidBitmap tid.toNat = true ∧ s.wdn.baEnableFlag tid = true

def Issued (s : AddBaSystem) (tid : UInt8) : Prop :=
  ∃ frame ∈ s.issued, (addbaRequest frame.body).tid = tid.toUInt32

/-- With no call under way and no message left, the marked TIDs are those asked for. -/
def RequestsMatch (s : AddBaSystem) : Prop :=
  s.worker = .idle → s.que.pend = [] → s.mlme ≠ .lockWait → s.unsent = false →
    ∀ tid, Marked s tid ↔ Issued s tid

/-- The TID is written when no earlier request waits to be sent, and the message is
posted while the interface is up. -/
def Spaced (s : AddBaSystem) : AddBaEvent → Prop
  | .worker =>
      match s.worker with
      | .marked _ => s.que.pend = [] ∧ s.mlme ≠ .lockWait
      | .flagged => s.isUp = true
      | _ => True
  | _ => True

instance (s : AddBaSystem) (event : AddBaEvent) : Decidable (Spaced s event) :=
  match event with
  | .worker =>
      match worker : s.worker with
      | .marked _ => decidable_of_iff (s.que.pend = [] ∧ s.mlme ≠ .lockWait)
          (by simp [Spaced, worker])
      | .flagged => decidable_of_iff (s.isUp = true) (by simp [Spaced, worker])
      | .idle | .posted _ => isTrue (by simp [Spaced, worker])
  | .call _ | .ndev _ | .consume | .issue _ | .started => isTrue trivial

/-- A connection for which nothing has been asked yet. -/
structure Connected (s : AddBaSystem) : Prop where
  found : wfWdnFindInfo s.nic s.nic.curBssid = some s.pwdn
  flags : ∀ tid, s.wdn.baEnableFlag tid = false
  worker : s.worker = .idle
  mlme : s.mlme = .idle
  pend : s.que.pend = []
  free : s.que.free ≠ []
  issued : s.issued = []

/-! ## One request at a time -/

/-- A TID is marked and its request not yet built. -/
def Owed (s : AddBaSystem) : Prop :=
  s.worker = .flagged ∨ s.que.pend ≠ [] ∨ s.mlme = .lockWait

/-- No request waits behind the worker. -/
def Clear (s : AddBaSystem) : Prop := s.que.pend = [] ∧ s.mlme ≠ .lockWait

/-- The worker has set the first bit of a TID and not the second. -/
def HalfMarked (s : AddBaSystem) (priority : UInt8) : Prop :=
  priority < 8 ∧ hasTid s.wdn.candidateTidBitmap priority.toNat = true ∧
    s.wdn.baEnableFlag priority = false

def WorkerAt (s : AddBaSystem) : WorkerPc → Prop
  | .idle => True
  | .marked priority => HalfMarked s priority
  | .posted priority =>
      HalfMarked s priority ∧ s.nic.bareqParm.tid = priority.toUInt32 ∧ Clear s
  | .flagged => Clear s

structure RequestOk (s : AddBaSystem) : Prop where
  found : wfWdnFindInfo s.nic s.nic.curBssid = some s.pwdn
  pool : s.que.pend = [] → s.que.free ≠ []
  one : s.que.pend.length ≤ 1
  queued : s.que.pend ≠ [] → s.mlme ≠ .lockWait
  enabled : s.worker ≠ .idle ∨ Owed s → s.baEnable = true
  worker : WorkerAt s s.worker
  small : Owed s → s.nic.bareqParm.tid < 16
  marks : ∀ tid, Marked s tid ↔
    Issued s tid ∨ (Owed s ∧ s.nic.bareqParm.tid = tid.toUInt32)

section Kept

variable {s : AddBaSystem}

@[simp] theorem AddBaSystem.wdn_setWdn (s : AddBaSystem) (wdn : WdnNetInfo) :
    (s.setWdn wdn).wdn = wdn := by
  simp [AddBaSystem.wdn, AddBaSystem.setWdn, BaNic.setWdn]

theorem not_owed_iff_clear (calm : s.worker ≠ .flagged) : ¬ Owed s ↔ Clear s := by
  unfold Owed Clear
  simp [calm]

theorem RequestOk.matches (ok : RequestOk s) : RequestsMatch s := by
  intro idle pend mlme _ tid
  have clear : ¬ Owed s := (not_owed_iff_clear (by simp [idle])).mpr ⟨pend, mlme⟩
  rw [ok.marks tid]
  simp [clear]

theorem Connected.requestOk (start : Connected s) : RequestOk s := by
  have clear : ¬ Owed s :=
    (not_owed_iff_clear (by simp [start.worker])).mpr ⟨start.pend, by simp [start.mlme]⟩
  refine ⟨start.found, fun _ => start.free, by simp [start.pend], by simp [start.pend], ?_,
    ?_, fun owed => absurd owed clear, ?_⟩
  · rintro (busy | owed)
    · exact absurd start.worker busy
    · exact absurd owed clear
  · rw [start.worker]
    trivial
  · intro tid
    simp [clear, Marked, Issued, start.flags, start.issued]

theorem addBaWanted_flag {wdn : WdnNetInfo} {frame : BaFrame}
    (wanted : addBaWanted wdn frame = true) : wdn.baEnableFlag frame.priority = false := by
  unfold addBaWanted at wanted
  by_cases flag : wdn.baEnableFlag frame.priority = true
  · simp [flag] at wanted
  · simpa using flag

theorem hasTid_mark {priority : UInt8} (small : priority < 8) (bitmap : UInt8) (i : Nat) :
    hasTid (bitmap ||| tidBit priority.toUInt16) i =
      if i = priority.toNat then true else hasTid bitmap i := by
  have bound : priority.toUInt16 < 8 := by
    rw [UInt16.lt_iff_toNat_lt, UInt8.toNat_toUInt16]
    exact UInt8.lt_iff_toNat_lt.mp small
  rw [hasTid_set bound, UInt8.toNat_toUInt16]

theorem marked_markCandidate {priority : UInt8} (small : priority < 8)
    (flag : s.wdn.baEnableFlag priority = false) (tid : UInt8) :
    Marked (markCandidate s priority) tid ↔ Marked s tid := by
  have wdn : (markCandidate s priority).wdn = { s.wdn with
      candidateTidBitmap := s.wdn.candidateTidBitmap ||| tidBit priority.toUInt16 } :=
    s.wdn_setWdn _
  unfold Marked
  rw [wdn]
  dsimp only
  rw [hasTid_mark small]
  by_cases own : tid = priority
  · simp [own, flag]
  · have apart : tid.toNat ≠ priority.toNat := by simpa [UInt8.toNat_inj] using own
    simp [apart]

/-- The bit of a TID that is not flagged is no mark yet. -/
theorem RequestOk.markCandidate (ok : RequestOk s) {priority : UInt8} (small : priority < 8)
    (idle : s.worker = .idle) (enable : s.baEnable = true)
    (flag : s.wdn.baEnableFlag priority = false) : RequestOk (markCandidate s priority) := by
  have wdn : (Action.markCandidate s priority).wdn = { s.wdn with
      candidateTidBitmap := s.wdn.candidateTidBitmap ||| tidBit priority.toUInt16 } :=
    s.wdn_setWdn _
  have owed : Owed (Action.markCandidate s priority) ↔ Owed s := by
    simp [Owed, Action.markCandidate, AddBaSystem.setWdn, idle]
  refine ⟨?_, ok.pool, ok.one, ok.queued, fun _ => enable, ?_, ?_, ?_⟩
  · exact (wfWdnFindInfo_setWdn (by rfl) _).trans ok.found
  · change HalfMarked _ _
    unfold HalfMarked
    rw [wdn]
    refine ⟨small, ?_, flag⟩
    rw [hasTid_mark small, if_pos rfl]
  · exact fun due => ok.small (owed.mp due)
  · intro tid
    rw [marked_markCandidate small flag, ok.marks, owed]
    rfl

theorem RequestOk.callAddBa (ok : RequestOk s) (frame : BaFrame) :
    RequestOk (callAddBa s frame) := by
  unfold Action.callAddBa
  by_cases wanted : s.worker = .idle ∧ s.baEnable ∧ addBaWanted s.wdn frame
  · rw [if_pos wanted]
    exact ok.markCandidate frame.small wanted.1 wanted.2.1 (addBaWanted_flag wanted.2.2)
  · rw [if_neg wanted]
    exact ok

theorem RequestOk.postTid (ok : RequestOk s) {priority : UInt8}
    (here : s.worker = .marked priority) (clear : Clear s) : RequestOk (postTid s priority) := by
  have marked := ok.worker
  rw [here] at marked
  have settled : ¬ Owed s := (not_owed_iff_clear (by simp [here])).mpr clear
  have settled' : ¬ Owed (Action.postTid s priority) :=
    (not_owed_iff_clear (by simp [Action.postTid])).mpr clear
  refine ⟨ok.found, ok.pool, ok.one, ok.queued, fun _ => ok.enabled (.inl (by simp [here])),
    ⟨marked, rfl, clear⟩, fun owed => absurd owed settled', ?_⟩
  intro tid
  have before := ok.marks tid
  simp only [settled, settled', false_and, or_false] at before ⊢
  exact before

theorem RequestOk.raiseFlag (ok : RequestOk s) {priority : UInt8}
    (here : s.worker = .posted priority) : RequestOk (raiseFlag s priority) := by
  have posted := ok.worker
  rw [here] at posted
  obtain ⟨⟨small, candidate, flag⟩, tid, clear⟩ := posted
  have wdn : (Action.raiseFlag s priority).wdn = { s.wdn with
      baEnableFlag := Function.update s.wdn.baEnableFlag priority true } := s.wdn_setWdn _
  have settled : ¬ Owed s := (not_owed_iff_clear (by simp [here])).mpr clear
  refine ⟨?_, ok.pool, ok.one, ok.queued, fun _ => ok.enabled (.inl (by simp [here])), clear,
    fun _ => ?_, ?_⟩
  · exact (wfWdnFindInfo_setWdn (by rfl) _).trans ok.found
  · change s.nic.bareqParm.tid < 16
    rw [tid, UInt32.lt_iff_toNat_lt, UInt8.toNat_toUInt32]
    have bound : priority.toNat < 8 := UInt8.lt_iff_toNat_lt.mp small
    exact Nat.lt_trans bound (by decide)
  · intro other
    have before := ok.marks other
    simp only [settled, false_and, or_false] at before
    have due : Owed (Action.raiseFlag s priority) := .inl rfl
    change _ ↔ Issued s other ∨ _ ∧ s.nic.bareqParm.tid = other.toUInt32
    rw [← before, tid]
    unfold Marked
    rw [wdn]
    by_cases own : other = priority
    · simp [own, candidate, due]
    · have apart : priority.toUInt32 ≠ other.toUInt32 := by
        intro same
        apply own
        have values := congrArg UInt32.toNat same
        rw [UInt8.toNat_toUInt32, UInt8.toNat_toUInt32] at values
        exact UInt8.toNat_inj.mp values.symm
      simp [own, apart]

theorem RequestOk.sends (ok : RequestOk s) (here : s.worker = .flagged)
    (up : s.isUp = true) : RequestOk { wfMlmeAddBaReq s with worker := .idle } := by
  have clear := ok.worker
  rw [here] at clear
  obtain ⟨pend, mlme⟩ := clear
  obtain ⟨msg, rest, free⟩ := List.exists_cons_of_ne_nil (ok.pool pend)
  have posted : wfMlmeAddBaReq s = { s with
      que := wfMsgPush (fun _ => 0) (msgPop s.que msg) msg } := by
    simp [wfMlmeAddBaReq, up, wfMsgNew, free]
  have queued : (wfMsgPush (fun _ => 0) (msgPop s.que msg) msg).pend = [msg] := by
    simp [wfMsgPush, msgPop, pend]
  rw [posted]
  refine ⟨ok.found, ?_, ?_, fun _ => mlme, fun _ => ok.enabled (.inr (.inl here)), trivial,
    fun _ => ok.small (.inl here), ?_⟩
  · simp [queued]
  · simp [queued]
  · intro tid
    have before := ok.marks tid
    have due : Owed s := .inl here
    rw [show Owed _ ↔ Owed s from ⟨fun _ => due, fun _ => .inr (.inl (by simp [queued]))⟩]
    exact before

theorem RequestOk.workerStep (ok : RequestOk s) (spaced : Spaced s .worker) :
    RequestOk (workerStep s) := by
  unfold Action.workerStep
  unfold Spaced at spaced
  cases here : s.worker with
  | idle => exact ok
  | marked priority =>
      rw [here] at spaced
      exact ok.postTid here spaced
  | posted priority => exact ok.raiseFlag here
  | flagged =>
      rw [here] at spaced
      exact ok.sends here spaced

theorem WorkerAt.congr {point : WorkerPc} (ok : WorkerAt s point) {s' : AddBaSystem}
    (candidate : s'.wdn.candidateTidBitmap = s.wdn.candidateTidBitmap)
    (flag : s'.wdn.baEnableFlag = s.wdn.baEnableFlag)
    (tid : s'.nic.bareqParm.tid = s.nic.bareqParm.tid) (clear : Clear s → Clear s') :
    WorkerAt s' point := by
  have half (priority : UInt8) (before : HalfMarked s priority) : HalfMarked s' priority := by
    unfold HalfMarked at before ⊢
    rw [candidate, flag]
    exact before
  cases point with
  | idle => trivial
  | marked priority => exact half priority ok
  | posted priority => exact ⟨half priority ok.1, tid.trans ok.2.1, clear ok.2.2⟩
  | flagged => exact clear ok

theorem marked_congr {s' : AddBaSystem}
    (candidate : s'.wdn.candidateTidBitmap = s.wdn.candidateTidBitmap)
    (flag : s'.wdn.baEnableFlag = s.wdn.baEnableFlag) (tid : UInt8) :
    Marked s' tid ↔ Marked s tid := by
  unfold Marked
  rw [candidate, flag]

theorem RequestOk.consumeAddBa (ok : RequestOk s) : RequestOk (consumeAddBa s) := by
  unfold Action.consumeAddBa
  by_cases idle : s.mlme = .idle
  · rw [if_pos idle]
    cases waiting : s.que.pend with
    | nil =>
        simp only [wfMsgPop, waiting, List.head?_nil, Option.map_none]
        exact ok
    | cons msg rest =>
        have last : rest = [] := by
          have one := ok.one
          rw [waiting, List.length_cons] at one
          exact List.length_eq_zero_iff.mp (by omega)
        subst last
        have due : Owed s := .inr (.inl (by simp [waiting]))
        have pops : wfMsgPop s.que = some (msg, msgPop s.que msg) := by
          simp [wfMsgPop, waiting]
        have taken : (wfMsgDel (msgPop s.que msg) msg).pend = [] := by
          simp [wfMsgDel, msgPop, waiting]
        rw [pops]
        dsimp only
        have waits : ¬ Clear s := by simp [Clear, waiting]
        refine ⟨ok.found, ?_, ?_, ?_, fun _ => ok.enabled (.inr due),
          ok.worker.congr rfl rfl rfl (fun clear => absurd clear waits),
          fun _ => ok.small due, ?_⟩
        · simp [wfMsgDel]
        · simp [taken]
        · simp [taken]
        · intro tid
          rw [show Owed _ ↔ Owed s from ⟨fun _ => due, fun _ => .inr (.inr rfl)⟩]
          exact ok.marks tid
  · rw [if_neg idle]
    exact ok

/-- Building a request leaves the marks alone, and what goes out asks for the TID that is
in `bareq_parm` then. -/
theorem issue_addbaReq {nic : BaNic} {pwdn : Nat} (xmit : XmitOutcome)
    (found : wfWdnFindInfo nic nic.curBssid = some pwdn) (small : nic.bareqParm.tid < 16) :
    let result := wfActionFrameBaToIssue nic .addbaReq xmit
    wfWdnFindInfo result.1 result.1.curBssid = some pwdn ∧
      result.1.bareqParm = nic.bareqParm ∧
      (result.1.wdn pwdn).candidateTidBitmap = (nic.wdn pwdn).candidateTidBitmap ∧
      (result.1.wdn pwdn).baEnableFlag = (nic.wdn pwdn).baEnableFlag ∧
      ∀ frame ∈ result.2, (addbaRequest frame.body).tid = nic.bareqParm.tid := by
  unfold wfActionFrameBaToIssue
  rw [found]
  cases xmit.extbuf with
  | false => exact ⟨found, rfl, rfl, rfl, nofun⟩
  | true =>
      have read := @addbaRequest_issued nic pwdn small
      refine ⟨?_, rfl, ?_, ?_, ?_⟩
      · exact (wfWdnFindInfo_setWdn (by rfl) _).trans found
      · simp [baFields, BaNic.setWdn]
      · simp [baFields, BaNic.setWdn]
      · intro frame member
        cases sent : xmit.sent with
        | false => simp [sent] at member
        | true =>
            simp only [sent, if_true, Option.mem_def, Option.some.injEq] at member
            subst member
            change (addbaRequest (baFields nic pwdn .addbaReq).2).tid = _
            rw [read]

theorem RequestOk.recordIssue (ok : RequestOk s) (waits : s.mlme = .lockWait)
    (xmit : XmitOutcome) :
    (recordIssue s (wfActionFrameBaToIssue s.nic .addbaReq xmit)).unsent = true ∨
      RequestOk (recordIssue s (wfActionFrameBaToIssue s.nic .addbaReq xmit)) := by
  have due : Owed s := .inr (.inr waits)
  have waiting : ¬ Clear s := fun clear => clear.2 waits
  have alone : s.que.pend = [] := by
    by_contra queued
    exact ok.queued queued waits
  have calm : s.worker ≠ .flagged := by
    intro here
    have clear := ok.worker
    rw [here] at clear
    exact waiting clear
  obtain ⟨found, bareq, candidate, flag, asked⟩ := issue_addbaReq xmit ok.found (ok.small due)
  generalize wfActionFrameBaToIssue s.nic .addbaReq xmit = result
    at found bareq candidate flag asked
  obtain ⟨nic, frame⟩ := result
  cases frame with
  | none =>
      left
      simp [Action.recordIssue]
  | some frame =>
      right
      have settled : ¬ Owed (Action.recordIssue s (nic, some frame)) := by
        simp [Owed, Action.recordIssue, calm, alone]
      refine ⟨found, ok.pool, ok.one, fun _ => nofun, fun _ => ok.enabled (.inr due),
        ok.worker.congr candidate flag (congrArg AddBaParm.tid bareq)
          (fun clear => absurd clear waiting), fun owed => absurd owed settled, ?_⟩
      intro tid
      have before := ok.marks tid
      simp only [due, true_and] at before
      rw [@marked_congr s (Action.recordIssue s (nic, some frame)) candidate flag, before]
      simp only [settled, false_and, or_false]
      have tidFrame := asked frame rfl
      simp [Issued, Action.recordIssue, or_and_right, exists_or, tidFrame]

theorem RequestOk.issueAddBa (ok : RequestOk s) (xmit : XmitOutcome) :
    (issueAddBa s xmit).unsent = true ∨ RequestOk (issueAddBa s xmit) := by
  unfold Action.issueAddBa
  by_cases waits : s.mlme = .lockWait
  · have enable : s.baEnable = true := ok.enabled (.inr (.inr (.inr waits)))
    rw [if_pos waits, if_pos enable]
    exact ok.recordIssue waits xmit
  · rw [if_neg waits]
    exact .inr ok

theorem RequestOk.startedAddBa (ok : RequestOk s) : RequestOk (startedAddBa s) := by
  unfold Action.startedAddBa
  by_cases sent : s.mlme = .sent
  · rw [if_pos sent]
    have wdn : (raiseStarted s).wdn = { s.wdn with
        baStartedFlag := Function.update s.wdn.baStartedFlag s.nic.bareqParm.tid.toUInt8 true } :=
      s.wdn_setWdn _
    have candidate : (raiseStarted s).wdn.candidateTidBitmap = s.wdn.candidateTidBitmap := by
      rw [wdn]
    have flag : (raiseStarted s).wdn.baEnableFlag = s.wdn.baEnableFlag := by
      rw [wdn]
    have owed : Owed (raiseStarted s) ↔ Owed s := by
      simp [Owed, raiseStarted, AddBaSystem.setWdn, sent]
    refine ⟨(wfWdnFindInfo_setWdn (by rfl) _).trans ok.found, ok.pool, ok.one, fun _ => nofun,
      fun busy => ok.enabled (busy.imp id owed.mp),
      ok.worker.congr candidate flag rfl (fun clear => ⟨clear.1, nofun⟩),
      fun due => ok.small (owed.mp due), ?_⟩
    intro tid
    rw [marked_congr candidate flag, ok.marks, owed]
    rfl
  · rw [if_neg sent]
    exact ok

/-- A request that was not sent stays recorded. -/
theorem unsent_addBaStep {s' : AddBaSystem} {event : AddBaEvent}
    (hstep : addBaStep s event = some s') (unsent : s.unsent = true) : s'.unsent = true := by
  cases event with
  | call frame =>
      cases hstep
      unfold callAddBa
      split_ifs
      · exact unsent
      · exact unsent
  | worker =>
      cases hstep
      unfold workerStep
      cases s.worker with
      | idle | marked priority | posted priority => exact unsent
      | flagged =>
          change (wfMlmeAddBaReq s).unsent = true
          unfold wfMlmeAddBaReq
          split_ifs
          · split
            · exact unsent
            · exact unsent
          · exact unsent
  | ndev isUp =>
      cases hstep
      exact unsent
  | consume =>
      cases hstep
      unfold consumeAddBa
      split_ifs
      · split
        · exact unsent
        · exact unsent
      · exact unsent
  | issue xmit =>
      cases hstep
      unfold issueAddBa
      split_ifs
      · simp [recordIssue, unsent]
      · exact unsent
      · exact unsent
  | started =>
      cases hstep
      unfold startedAddBa
      split_ifs
      · exact unsent
      · exact unsent

theorem RequestOk.addBaStep (ok : RequestOk s) {event : AddBaEvent} (spaced : Spaced s event) :
    ∃ s', addBaStep s event = some s' ∧ (s'.unsent = true ∨ RequestOk s') := by
  cases event with
  | call frame => exact ⟨_, rfl, .inr (ok.callAddBa frame)⟩
  | worker => exact ⟨_, rfl, .inr (ok.workerStep spaced)⟩
  | ndev isUp =>
      exact ⟨_, rfl, .inr ⟨ok.found, ok.pool, ok.one, ok.queued, ok.enabled, ok.worker,
        ok.small, ok.marks⟩⟩
  | consume => exact ⟨_, rfl, .inr ok.consumeAddBa⟩
  | issue xmit => exact ⟨_, rfl, ok.issueAddBa xmit⟩
  | started => exact ⟨_, rfl, .inr ok.startedAddBa⟩

end Kept

theorem ba_requests_issued {s : AddBaSystem} (start : Connected s) (events : List AddBaEvent)
    (spaced : EachStep addBaStep Spaced s events) :
    Throughout addBaStep RequestsMatch s events := by
  refine spaced.throughout (fun s => s.unsent = true ∨ RequestOk s) ?_ ?_
    (.inr start.requestOk)
  · rintro s (unsent | ok)
    · intro _ _ _ allSent
      rw [unsent] at allSent
      cases allSent
    · exact ok.matches
  · rintro s event (unsent | ok) allowed
    · obtain ⟨s', hstep⟩ : ∃ s', addBaStep s event = some s' := by
        cases event <;> exact ⟨_, rfl⟩
      exact ⟨s', hstep, .inl (unsent_addBaStep hstep unsent)⟩
    · exact ok.addBaStep allowed

/-- A connection with two messages in its pool, and data frames for it. -/
def addBaExample : AddBaSystem where
  nic := baExample 0
  pwdn := 0
  isUp := true
  baEnable := true
  que := ⟨[], [0, 1]⟩
  worker := .idle
  mlme := .idle
  issued := []
  unsent := false

theorem ofNat_lt_eight (priority : Fin 8) : UInt8.ofNat priority < 8 := by
  revert priority
  decide

def dataFrame (priority : Fin 8) : BaFrame where
  bmcast := false
  priority := UInt8.ofNat priority
  dataTag := true
  etherType := 0x0800
  dhcpPkt := false
  small := ofNat_lt_eight priority

/-- The worker asks for one TID. -/
def asks (priority : Fin 8) : List AddBaEvent :=
  .call (dataFrame priority) :: List.replicate 3 .worker

/-- The MLME sends one request. -/
def serves : List AddBaEvent := [.consume, .issue ⟨true, true⟩, .started]

theorem connected_addBaExample : Connected addBaExample where
  found := by decide
  flags := fun _ => rfl
  worker := rfl
  mlme := rfl
  pend := rfl
  free := by decide
  issued := rfl

theorem ba_requests_issued_spaced :
    EachStep addBaStep Spaced addBaExample (asks 0 ++ serves ++ asks 5 ++ serves) ∧
      Throughout addBaStep RequestsMatch addBaExample
        (asks 0 ++ serves ++ asks 5 ++ serves) := by
  have spaced : EachStep addBaStep Spaced addBaExample
      (asks 0 ++ serves ++ asks 5 ++ serves) := by
    decide +kernel
  exact ⟨spaced, ba_requests_issued connected_addBaExample _ spaced⟩

/-- Two TIDs one after the other, before the first message is taken: both requests ask
for the second. -/
theorem ba_request_overwritten :
    ¬ Throughout addBaStep RequestsMatch addBaExample
      (asks 0 ++ asks 5 ++ serves ++ serves) := by
  intro matched
  obtain ⟨s, reached, same⟩ := matched.final
  have found : (run addBaStep addBaExample (asks 0 ++ asks 5 ++ serves ++ serves)).all
      (fun s => decide ((s.worker = .idle ∧ s.que.pend = [] ∧ s.mlme ≠ .lockWait ∧
        s.unsent = false) ∧ (hasTid s.wdn.candidateTidBitmap 0 = true ∧
        s.wdn.baEnableFlag 0 = true) ∧
        ∀ frame ∈ s.issued, (addbaRequest frame.body).tid ≠ 0)) = true := by
    decide +kernel
  rw [reached, Option.all_some, decide_eq_true_iff] at found
  obtain ⟨⟨worker, pend, mlme, sent⟩, marked, asked⟩ := found
  obtain ⟨frame, member, tid⟩ := (same worker pend mlme sent 0).mp marked
  exact asked frame member tid

end Smartchip.Action
