import Smartchip.Action.BlockAck
import Smartchip.Foundation.Run

/-!
# Answering for block-ack agreements as an access point

In master mode a request is passed to the thread of its station as a message without
data, and that thread has the response built from `barsp_parm`, for the station that has
the address of the BSS.  The stations stay associated.
-/

namespace Smartchip.Action

open Smartchip.Foundation Smartchip.Frame

/-- `baReqFree` counts the free messages for requests, which all stations share.  Beside
each loaded message stands the request that it was loaded for; `accepted` and `served`
record, for each station, the requests that got a message and what was sent for them. -/
structure ApSystem where
  nic : BaNic
  baEnable : Bool
  baReqFree : Nat
  apMsg : Nat → List ActionFrame
  accepted : Nat → List ActionFrame
  served : Nat → List (ActionFrame × Option ActionFrame)

def wfApMsgLoad (s : ApSystem) (pwdn : Nat) (request : ActionFrame) : ApSystem :=
  match s.baReqFree with
  | 0 => s
  | free + 1 => { s with
      baReqFree := free
      apMsg := Function.update s.apMsg pwdn (s.apMsg pwdn ++ [request])
      accepted := Function.update s.accepted pwdn (s.accepted pwdn ++ [request]) }

/-- A received action frame; the station is that of the source address. -/
def receiveAction (s : ApSystem) (frame : ActionFrame) : ApSystem :=
  match wfWdnFindInfo s.nic frame.addr2 with
  | none => s
  | some pwdn =>
      if frame.category = categoryBack ∧ s.baEnable then
        let result := actionFrameBlockAck s.nic pwdn frame
        match result.2 with
        | .apRequest => wfApMsgLoad { s with nic := result.1 } pwdn frame
        | _ => { s with nic := result.1 }
      else s

/-- `maintain_thrd` of a station, at a message for a request. -/
def maintainThrd (s : ApSystem) (pwdn : Nat) (xmit : XmitOutcome) : ApSystem :=
  match s.apMsg pwdn with
  | [] => s
  | request :: rest =>
      let result := wfActionFrameBaToIssue s.nic .addbaResp xmit
      { s with
        nic := result.1
        baReqFree := s.baReqFree + 1
        apMsg := Function.update s.apMsg pwdn rest
        served := Function.update s.served pwdn (s.served pwdn ++ [(request, result.2)]) }

inductive ApEvent where
  | receive (frame : ActionFrame)
  | maintain (pwdn : Nat) (xmit : XmitOutcome)

def apStep (s : ApSystem) : ApEvent → Option ApSystem
  | .receive frame => some (receiveAction s frame)
  | .maintain pwdn xmit => some (maintainThrd s pwdn xmit)

/-- The bits of the TID in a parameter set. -/
def tidField (paraSet : UInt16) : UInt16 := paraSet &&& 0x003C

/-- A response goes to the sender of a request and echoes its dialog token and TID. -/
structure AnswersTo (request response : ActionFrame) : Prop where
  addr : response.addr1 = request.addr2
  dialog : response.body.getD 0 0 = request.body.getD 0 0
  tid : tidField (getLe16 response.body 3) = tidField (getLe16 request.body 1)

/-- Every request that got a message is served once, in its turn, and by an answer. -/
def AllAnswered (s : ApSystem) : Prop :=
  ∀ pwdn, s.accepted pwdn = (s.served pwdn).map Prod.fst ++ s.apMsg pwdn ∧
    ∀ entry ∈ s.served pwdn, ∃ response, entry.2 = some response ∧
      AnswersTo entry.1 response

/-- The request next served comes from the address of the BSS itself, `barsp_parm` holds
its dialog token and TID, and the response can be sent. -/
def Answerable (s : ApSystem) : ApEvent → Prop
  | .receive _ => True
  | .maintain pwdn xmit => ∀ request ∈ (s.apMsg pwdn).head?,
      xmit = ⟨true, true⟩ ∧ request.addr2 = s.nic.curBssid ∧
      request.body.getD 0 0 = s.nic.barspParm.dialog ∧
      tidField (getLe16 request.body 1) = tidField (s.nic.barspParm.tid <<< 2).toUInt16

/-- An access point with nothing received yet. -/
structure Standing (s : ApSystem) : Prop where
  mode : s.nic.workMode = .master
  apMsg : ∀ pwdn, s.apMsg pwdn = []
  accepted : ∀ pwdn, s.accepted pwdn = []
  served : ∀ pwdn, s.served pwdn = []

/-! ## What the steps keep -/

structure ApOk (s : ApSystem) : Prop where
  mode : s.nic.workMode = .master
  known : ∀ pwdn, ∀ request ∈ s.apMsg pwdn, (wfWdnFindInfo s.nic request.addr2).isSome
  inTurn : ∀ pwdn, s.accepted pwdn = (s.served pwdn).map Prod.fst ++ s.apMsg pwdn

section Kept

variable {s : ApSystem}

theorem Standing.apOk (start : Standing s) : ApOk s where
  mode := start.mode
  known := by simp [start.apMsg]
  inTurn := by simp [start.apMsg, start.accepted, start.served]

theorem Standing.allAnswered (start : Standing s) : AllAnswered s := by
  intro pwdn
  simp [start.apMsg, start.accepted, start.served]

/-- Reading a frame leaves the addresses of the stations and the mode alone. -/
theorem actionFrameBlockAck_frame (nic : BaNic) (pwdn : Nat) (frame : ActionFrame) :
    (actionFrameBlockAck nic pwdn frame).1.workMode = nic.workMode ∧
      ∀ mac, wfWdnFindInfo (actionFrameBlockAck nic pwdn frame).1 mac =
        wfWdnFindInfo nic mac := by
  unfold actionFrameBlockAck
  split_ifs
  · have same : (readAddbaReq nic frame.body).1 = nic := by
      unfold readAddbaReq
      cases nic.workMode with
      | infra | master | adhoc | other => rfl
    rw [same]
    exact ⟨rfl, fun _ => rfl⟩
  · refine ⟨rfl, fun mac => ?_⟩
    apply wfWdnFindInfo_setWdn
    split_ifs
    · rfl
    · rfl
  · unfold readDelba
    dsimp only
    split_ifs
    · exact ⟨rfl, fun mac => wfWdnFindInfo_setWdn (by rfl) mac⟩
    · exact ⟨rfl, fun _ => rfl⟩
  · exact ⟨rfl, fun _ => rfl⟩

theorem wfApMsgLoad_inTurn {pwdn : Nat} (request : ActionFrame)
    (inTurn : ∀ id, s.accepted id = (s.served id).map Prod.fst ++ s.apMsg id) (id : Nat) :
    (wfApMsgLoad s pwdn request).accepted id =
      ((wfApMsgLoad s pwdn request).served id).map Prod.fst ++
        (wfApMsgLoad s pwdn request).apMsg id := by
  unfold wfApMsgLoad
  split
  · exact inTurn id
  · by_cases own : id = pwdn
    · subst own
      simp [inTurn]
    · simp [own, inTurn]

theorem ApOk.wfApMsgLoad (ok : ApOk s) (pwdn : Nat) {request : ActionFrame}
    (found : (wfWdnFindInfo s.nic request.addr2).isSome) :
    ApOk (wfApMsgLoad s pwdn request) ∧ (wfApMsgLoad s pwdn request).served = s.served := by
  refine ⟨⟨?_, ?_, wfApMsgLoad_inTurn request ok.inTurn⟩, ?_⟩
  all_goals unfold Action.wfApMsgLoad; split
  · exact ok.mode
  · exact ok.mode
  · exact ok.known
  · intro id other member
    by_cases own : id = pwdn
    · subst own
      simp only [Function.update_self, List.mem_append, List.mem_singleton] at member
      rcases member with before | rfl
      · exact ok.known id other before
      · exact found
    · simp only [ne_eq, own, not_false_eq_true, Function.update_of_ne] at member
      exact ok.known id other member
  · rfl
  · rfl

theorem ApOk.receiveAction (ok : ApOk s) (frame : ActionFrame) :
    ApOk (receiveAction s frame) ∧ (receiveAction s frame).served = s.served := by
  unfold Action.receiveAction
  cases found : wfWdnFindInfo s.nic frame.addr2 with
  | none => exact ⟨ok, rfl⟩
  | some pwdn =>
      dsimp only
      split_ifs
      · obtain ⟨mode, same⟩ := actionFrameBlockAck_frame s.nic pwdn frame
        have read : ApOk { s with nic := (actionFrameBlockAck s.nic pwdn frame).1 } := by
          refine ⟨mode.trans ok.mode, ?_, ok.inTurn⟩
          intro id request member
          rw [same]
          exact ok.known id request member
        split
        · apply read.wfApMsgLoad
          rw [same, found]
          rfl
        · exact ⟨read, rfl⟩
      · exact ⟨ok, rfl⟩

/-- Building a response changes nothing. -/
theorem issue_addbaResp (nic : BaNic) (xmit : XmitOutcome) :
    (wfActionFrameBaToIssue nic .addbaResp xmit).1 = nic := by
  unfold wfActionFrameBaToIssue
  cases wfWdnFindInfo nic nic.curBssid with
  | none => rfl
  | some pwdn =>
      cases xmit.extbuf with
      | false => rfl
      | true => rfl

theorem ApOk.maintainThrd (ok : ApOk s) (pwdn : Nat) (xmit : XmitOutcome) :
    ApOk (maintainThrd s pwdn xmit) := by
  unfold Action.maintainThrd
  cases waiting : s.apMsg pwdn with
  | nil => exact ok
  | cons request rest =>
      dsimp only
      rw [issue_addbaResp]
      refine ⟨ok.mode, ?_, ?_⟩
      · intro id other member
        dsimp only at member
        by_cases own : id = pwdn
        · subst own
          rw [Function.update_self] at member
          exact ok.known id other (by simp [waiting, member])
        · rw [Function.update_of_ne own] at member
          exact ok.known id other member
      · intro id
        by_cases own : id = pwdn
        · subst own
          simp [ok.inTurn, waiting]
        · simp [own, ok.inTurn]

theorem answersTo_baFrame {request : ActionFrame} {k : Nat} :
    AnswersTo request (baFrame s.nic k .addbaResp) ↔
      request.addr2 = (s.nic.wdn k).mac ∧
      request.body.getD 0 0 = s.nic.barspParm.dialog ∧
      tidField (getLe16 request.body 1) =
        tidField (s.nic.barspParm.tid <<< 2).toUInt16 := by
  have paraSet : getLe16 (baFrame s.nic k .addbaResp).body 3 =
      addbaRespParaSet s.nic.barspParm := ofLe16_toNat _
  have tid : tidField (getLe16 (baFrame s.nic k .addbaResp).body 3) =
      tidField (s.nic.barspParm.tid <<< 2).toUInt16 := by
    rw [paraSet]
    exact addbaRespParaSet_tid s.nic.barspParm
  constructor
  · rintro ⟨addr, dialog, same⟩
    exact ⟨addr.symm, dialog.symm, same.symm.trans tid⟩
  · rintro ⟨addr, dialog, same⟩
    exact ⟨addr.symm, dialog.symm, tid.trans same.symm⟩

/-- When the response that the thread has built answers the request. -/
theorem answered_iff (ok : ApOk s) {pwdn : Nat} {request : ActionFrame}
    {rest : List ActionFrame} (waiting : s.apMsg pwdn = request :: rest)
    (xmit : XmitOutcome) :
    (∃ response, (wfActionFrameBaToIssue s.nic .addbaResp xmit).2 = some response ∧
        AnswersTo request response) ↔ Answerable s (.maintain pwdn xmit) := by
  have known := ok.known pwdn request (by simp [waiting])
  have turn : Answerable s (.maintain pwdn xmit) ↔ xmit = ⟨true, true⟩ ∧
      request.addr2 = s.nic.curBssid ∧ request.body.getD 0 0 = s.nic.barspParm.dialog ∧
      tidField (getLe16 request.body 1) =
        tidField (s.nic.barspParm.tid <<< 2).toUInt16 := by
    simp [Answerable, waiting]
  rw [turn]
  cases found : wfWdnFindInfo s.nic s.nic.curBssid with
  | none =>
      constructor
      · rintro ⟨response, sent, -⟩
        simp [wfActionFrameBaToIssue, found] at sent
      · rintro ⟨-, addr, -⟩
        rw [addr, found] at known
        cases known
  | some k =>
      have mac : (s.nic.wdn k).mac = s.nic.curBssid := by
        simpa using List.find?_some found
      by_cases sends : xmit = ⟨true, true⟩
      · subst sends
        rw [wfActionFrameBaToIssue_sent .addbaResp found]
        simp [answersTo_baFrame, mac]
      · constructor
        · rintro ⟨response, sent, -⟩
          obtain ⟨extbuf, outcome⟩ := xmit
          cases extbuf <;> cases outcome <;> simp [wfActionFrameBaToIssue, found] at sent sends
        · rintro ⟨sent, -⟩
          exact absurd sent sends

theorem AllAnswered.receiveAction (good : AllAnswered s) (ok : ApOk s)
    (frame : ActionFrame) : AllAnswered (receiveAction s frame) := by
  obtain ⟨kept, served⟩ := ok.receiveAction frame
  intro pwdn
  refine ⟨kept.inTurn pwdn, ?_⟩
  rw [served]
  exact (good pwdn).2

theorem AllAnswered.maintainThrd_iff (good : AllAnswered s) (ok : ApOk s) (pwdn : Nat)
    (xmit : XmitOutcome) :
    AllAnswered (maintainThrd s pwdn xmit) ↔ Answerable s (.maintain pwdn xmit) := by
  have kept := ok.maintainThrd pwdn xmit
  cases waiting : s.apMsg pwdn with
  | nil =>
      have still : maintainThrd s pwdn xmit = s := by
        unfold maintainThrd
        rw [waiting]
      rw [still]
      simp [good, Answerable, waiting]
  | cons request rest =>
      rw [← answered_iff ok waiting xmit]
      generalize hsent : (wfActionFrameBaToIssue s.nic .addbaResp xmit).2 = sent
      have served : (maintainThrd s pwdn xmit).served =
          Function.update s.served pwdn (s.served pwdn ++ [(request, sent)]) := by
        unfold maintainThrd
        rw [waiting, ← hsent]
      constructor
      · intro answered
        refine (answered pwdn).2 (request, sent) ?_
        rw [served]
        simp
      · intro answered id
        refine ⟨kept.inTurn id, ?_⟩
        intro entry member
        rw [served] at member
        by_cases own : id = pwdn
        · subst own
          simp only [Function.update_self, List.mem_append, List.mem_singleton] at member
          rcases member with before | rfl
          · exact (good id).2 entry before
          · exact answered
        · rw [Function.update_of_ne own] at member
          exact (good id).2 entry member

end Kept

theorem ap_responses_answer_iff {s : ApSystem} (start : Standing s) (events : List ApEvent) :
    Throughout apStep AllAnswered s events ↔ EachStep apStep Answerable s events := by
  refine throughout_iff_eachStep ApOk ?_ ?_ start.apOk start.allAnswered
  · intro s next event ok hstep
    cases event with
    | receive frame =>
        cases hstep
        exact (ok.receiveAction frame).1
    | maintain pwdn xmit =>
        cases hstep
        exact ok.maintainThrd pwdn xmit
  · intro s event ok good
    cases event with
    | receive frame => exact ⟨fun _ => ⟨_, rfl, good.receiveAction ok frame⟩, fun _ => trivial⟩
    | maintain pwdn xmit =>
        rw [← good.maintainThrd_iff ok pwdn xmit]
        simp [apStep]

/-- An access point with one station. -/
def apExample (mac : MacAddr) : ApSystem where
  nic := { baExample 0 with
    workMode := .master
    localAddr := apAddr
    wdn := fun id => { (baExample 0).wdn id with mac }
    barspParm := {} }
  baEnable := true
  baReqFree := 16
  apMsg := fun _ => []
  accepted := fun _ => []
  served := fun _ => []

def requestFrame (addr2 : MacAddr) (dialog : UInt8) (tid : UInt32) : ActionFrame where
  addr1 := apAddr
  addr2
  addr3 := apAddr
  category := categoryBack
  actionField := BaAction.addbaReq.code
  body := dialog :: (le16 (addbaReqParaSet { tid }) ++ le16 5000 ++ le16 0)

theorem standing_apExample (mac : MacAddr) : Standing (apExample mac) :=
  ⟨rfl, fun _ => rfl, fun _ => rfl, fun _ => rfl⟩

instance (s : ApSystem) (event : ApEvent) : Decidable (Answerable s event) :=
  match event with
  | .receive _ => isTrue trivial
  | .maintain _ _ => Option.decidableForallMem _

/-- Only a station with the address of the access point gets an answer, and only to the
token and TID that `barsp_parm` happens to hold. -/
theorem ap_responses_answer_iff_own :
    Throughout apStep AllAnswered (apExample apAddr)
        [.receive (requestFrame apAddr 0 0), .maintain 0 ⟨true, true⟩] ∧
      (Throughout apStep AllAnswered (apExample staAddr)
          [.receive (requestFrame staAddr 1 5), .maintain 0 ⟨true, true⟩] ↔
        EachStep apStep Answerable (apExample staAddr)
          [.receive (requestFrame staAddr 1 5), .maintain 0 ⟨true, true⟩]) := by
  refine ⟨?_, ap_responses_answer_iff (standing_apExample staAddr) _⟩
  rw [ap_responses_answer_iff (standing_apExample apAddr)]
  decide +kernel

/-- A station asks with token 1 for TID 5, gets a message, and no response is sent. -/
theorem ap_request_unanswered :
    ¬ Throughout apStep AllAnswered (apExample staAddr)
      [.receive (requestFrame staAddr 1 5), .maintain 0 ⟨true, true⟩] := by
  intro answered
  obtain ⟨s, reached, good⟩ := answered.final
  have found : (run apStep (apExample staAddr) [.receive (requestFrame staAddr 1 5),
      .maintain 0 ⟨true, true⟩]).all (fun s => decide (s.served 0 =
        [(requestFrame staAddr 1 5, none)])) = true := by
    decide +kernel
  rw [reached, Option.all_some, decide_eq_true_iff] at found
  obtain ⟨response, sent, -⟩ := (good 0).2 (requestFrame staAddr 1 5, none) (by simp [found])
  cases sent

end Smartchip.Action
