import Smartchip.Frame.Elements
import Smartchip.Frame.Header
import Smartchip.Scan.Thread

/-!
# Authentication and association of a station

`wf_auth_sta_thrd` of `nic/auth.c` and `wf_assoc_sta_thrd` of `nic/assoc.c` with the
functions that feed them.  Each has a pool of four messages: two for responses, one to
stop the thread and one to start it.  A step is one access of the thread to what it
shares, or one wait that it finds over or not.
-/

namespace Smartchip.Mlme

open Smartchip.Foundation Smartchip.Frame Smartchip.Utility
open Smartchip.Scan (HwOwner)

inductive StaTag where
  | rsp
  | abort
  | start
  deriving DecidableEq

/-- `idx` tells the messages of one tag apart. -/
structure StaMsg where
  tag : StaTag
  idx : Nat
  deriving DecidableEq

/-- `tag | WF_MSG_TAG_ID_MSK`. -/
def StaMsg.urgency (msg : StaMsg) : Nat :=
  match msg.tag with
  | .rsp => 0x7F
  | .abort => 0xFF
  | .start => 0x17F

def tagAbort : Int := 0x80

def tagDone : Int := 0x101

/-- `auth_msg_init` and `assoc_msg_init`. -/
def staMessages : List StaMsg := [⟨.rsp, 0⟩, ⟨.rsp, 1⟩, ⟨.abort, 0⟩, ⟨.start, 0⟩]

/-- The queues of one thread and what its messages hold. -/
structure StaQue where
  que : MsgQue StaMsg
  len : StaMsg → UInt16
  value : StaMsg → Mem

def staQueInit : StaQue := ⟨⟨[], staMessages⟩, fun _ => 0, fun _ _ => 0⟩

def StaQue.del (q : StaQue) (msg : StaMsg) : StaQue := { q with que := wfMsgDel q.que msg }

/-- `wf_msg_new` and `wf_msg_push` of a message without data. -/
def StaQue.post (q : StaQue) (tag : StaTag) : StaQue :=
  match wfMsgNew q.que fun msg => msg.tag = tag with
  | none => q
  | some (msg, que) => { q with que := wfMsgPush StaMsg.urgency que msg }

/-- A response is copied into its message, over what the message held before. -/
def StaQue.postFrame (q : StaQue) (frame : List UInt8) : StaQue :=
  match wfMsgNew q.que fun msg => msg.tag = .rsp with
  | none => q
  | some (msg, que) =>
      { que := wfMsgPush StaMsg.urgency que msg
        len := Function.update q.len msg (UInt16.ofNat frame.length)
        value := Function.update q.value msg ((q.value msg).write 0 frame) }

/-! ## Authentication -/

/-- Where `wf_auth_sta_thrd` is, named after what it does next. -/
inductive AuthPc where
  | waitHw
  | popStart
  | begin
  | sendSeq1
  | waitSeq2
  | challenge
  | sendSeq3
  | waitSeq4
  | exit
  | exited
  deriving DecidableEq

/-- The answers to the calls of a step; `junk` is what `reason` holds when a call of the
thread begins. -/
structure StaAnswers where
  wdn : Bool
  send : Int
  expired : Bool
  junk : Int

/-- `pmsg` is the message that the thread has taken from its queue and not put back. -/
structure AuthSta where
  pc : AuthPc
  q : StaQue
  pmsg : Option StaMsg
  hwLock : Option HwOwner
  brun : Bool
  retryCnt : UInt8
  authSeq : UInt16
  authShared : Bool
  chlgTxt : List UInt8
  reason : Int
  prsn : Int

def authSta : AuthSta where
  pc := .exited
  q := staQueInit
  pmsg := none
  hwLock := none
  brun := false
  retryCnt := 0
  authSeq := 0
  authShared := false
  chlgTxt := []
  reason := 0
  prsn := 0

/-- The offset of `auth` in a frame, behind an HT control field if there is one. -/
def authIe (value : Mem) : Nat := 24 + if getHdrOrder value 0 then 4 else 0

def authTransaction (value : Mem) : UInt16 := value.readLe16 (authIe value + 2)

def authStatus (value : Mem) : UInt16 := value.readLe16 (authIe value + 4)

def statusSuccess : UInt16 := 0

def statusNotSupportedAuthAlg : UInt16 := 13

def eidChallenge : UInt8 := 16

/-- The search for the challenge text in a response.  There are as many offsets as there
is fuel, so a search that has not ended then never ends. -/
def findChallenge (value : Mem) (len : UInt16) : Option (Option Nat) :=
  wf80211MgmtIesSearch value (authIe value + 6) (len - UInt16.ofNat (authIe value + 6))
    eidChallenge 65536 0

namespace AuthSta

def suspend (s : AuthSta) (a : StaAnswers) : AuthSta := { s with reason := a.junk }

def leave (s : AuthSta) (reason : Int) : AuthSta := { s with reason, pc := .exit }

/-- The message that has been popped goes back. -/
def drop (s : AuthSta) (msg : StaMsg) : AuthSta := { s with q := s.q.del msg }

/-- `continue` in one of the two loops. -/
def retry (s : AuthSta) (pc : AuthPc) : AuthSta :=
  { s with retryCnt := s.retryCnt + 1, pc }

def popStart (s : AuthSta) (a : StaAnswers) : AuthSta :=
  match wfMsgPop s.q.que with
  | none => { s with hwLock := none, prsn := -1, pc := .exited }
  | some (msg, que) =>
      let s := { s with q := { s.q with que } }
      match msg.tag with
      | .start => { s.drop msg with pc := .begin }
      | _ => (s.drop msg).suspend a

def start (s : AuthSta) (a : StaAnswers) : AuthSta :=
  let s := { s with brun := true }
  if a.wdn then { s with authSeq := 1, authShared := false, retryCnt := 0, pc := .sendSeq1 }
  else s.leave (-2)

def sendSeq1 (s : AuthSta) (a : StaAnswers) : AuthSta :=
  if s.retryCnt < 3 then
    if a.send ≠ 0 then s.leave (-3) else { s with pc := .waitSeq2 }
  else s.leave (-4)

/-- A response to the first request.  Only for a challenge is the message kept. -/
def seq2 (s : AuthSta) (msg : StaMsg) : AuthSta :=
  let value := s.q.value msg
  if authTransaction value = 2 then
    if authStatus value = statusNotSupportedAuthAlg then
      ({ s with authShared := !s.authShared }.drop msg).retry .sendSeq1
    else if authStatus value = statusSuccess then
      if s.authShared then { s with pmsg := some msg, pc := .challenge }
      else (s.drop msg).leave tagDone
    else (s.drop msg).retry .sendSeq1
  else (s.drop msg).retry .sendSeq1

def challenge (s : AuthSta) : AuthSta :=
  match s.pmsg with
  | none => s
  | some msg =>
      let value := s.q.value msg
      match findChallenge value (s.q.len msg) with
      | none => s
      | some none => s.leave (-5)
      | some (some pie) =>
          if 128 < value (pie + 1) then s.leave (-5)
          else
            { s.drop msg with
              pmsg := none
              chlgTxt := value.read (pie + 2) (value (pie + 1)).toNat ++
                s.chlgTxt.drop (value (pie + 1)).toNat
              authSeq := 3
              retryCnt := 0
              pc := .sendSeq3 }

/-- Behind the loop the counter is compared with its bound, and a refusal has stepped it
past that. -/
def sendSeq3 (s : AuthSta) (a : StaAnswers) : AuthSta :=
  if s.retryCnt < 3 then
    if a.send ≠ 0 then s.leave (-6) else { s with pc := .waitSeq4 }
  else if s.retryCnt = 3 then s.leave (-7)
  else { s with pc := .exit }

def seq4 (s : AuthSta) (msg : StaMsg) : AuthSta :=
  let value := s.q.value msg
  if authTransaction value = 4 then
    if authStatus value = statusSuccess then (s.drop msg).leave tagDone
    else ({ s with retryCnt := 3 }.drop msg).retry .sendSeq3
  else (s.drop msg).retry .sendSeq3

/-- `PT_WAIT_UNTIL` for a message or the timer, in the loop that goes on at `again`. -/
def await (s : AuthSta) (a : StaAnswers) (again : AuthPc)
    (rsp : AuthSta → StaMsg → AuthSta) : AuthSta :=
  match wfMsgPop s.q.que with
  | none => if a.expired then s.retry again else s.suspend a
  | some (msg, que) =>
      let s := { s with q := { s.q with que } }
      match msg.tag with
      | .abort => (s.drop msg).leave tagAbort
      | .rsp => rsp s msg
      | .start => s.drop msg

/-- One step of `wf_auth_sta_thrd`.  A message that the thread still has at its end is
in no queue. -/
def thrd (s : AuthSta) (a : StaAnswers) : AuthSta :=
  match s.pc with
  | .waitHw =>
      match s.hwLock with
      | none => { s with hwLock := some .thread, pc := .popStart }
      | some _ => s.suspend a
  | .popStart => s.popStart a
  | .begin => s.start a
  | .sendSeq1 => s.sendSeq1 a
  | .waitSeq2 => s.await a .sendSeq1 seq2
  | .challenge => s.challenge
  | .sendSeq3 => s.sendSeq3 a
  | .waitSeq4 => s.await a .sendSeq3 seq4
  | .exit =>
      { s with brun := false, hwLock := none, prsn := s.reason, pmsg := none, pc := .exited }
  | .exited => s

end AuthSta

/-! ## Association -/

inductive AssocPc where
  | waitHw
  | popStart
  | send
  | waitMsg
  | exit
  | exited
  deriving DecidableEq

structure AssocSta where
  pc : AssocPc
  q : StaQue
  hwLock : Option HwOwner
  brun : Bool
  retryCnt : UInt8
  aid : UInt16
  reason : Int
  prsn : Int

def assocSta : AssocSta where
  pc := .exited
  q := staQueInit
  hwLock := none
  brun := false
  retryCnt := 0
  aid := 0
  reason := tagDone
  prsn := 0

namespace AssocSta

def suspend (s : AssocSta) : AssocSta := { s with reason := tagDone }

def leave (s : AssocSta) (reason : Int) : AssocSta := { s with reason, pc := .exit }

def drop (s : AssocSta) (msg : StaMsg) : AssocSta := { s with q := s.q.del msg }

def retry (s : AssocSta) : AssocSta := { s with retryCnt := s.retryCnt + 1, pc := .send }

def popStart (s : AssocSta) : AssocSta :=
  match wfMsgPop s.q.que with
  | none => { s with hwLock := none, prsn := -1, pc := .exited }
  | some (msg, que) =>
      let s := { s with q := { s.q with que } }
      match msg.tag with
      | .start => { s.drop msg with brun := true, retryCnt := 0, pc := .send }
      | _ => (s.drop msg).suspend

def send (s : AssocSta) (a : StaAnswers) : AssocSta :=
  if s.retryCnt < 3 then
    if a.send ≠ 0 then s.leave (-2) else { s with pc := .waitMsg }
  else s.leave (-3)

def rsp (s : AssocSta) (msg : StaMsg) : AssocSta :=
  let value := s.q.value msg
  if value.readLe16 26 = statusSuccess then
    { s.drop msg with aid := value.readLe16 28 }.leave tagDone
  else (s.drop msg).retry

def await (s : AssocSta) (a : StaAnswers) : AssocSta :=
  match wfMsgPop s.q.que with
  | none => if a.expired then s.retry else s.suspend
  | some (msg, que) =>
      let s := { s with q := { s.q with que } }
      match msg.tag with
      | .abort => (s.drop msg).leave tagAbort
      | .rsp => s.rsp msg
      | .start => s.drop msg

/-- One step of `wf_assoc_sta_thrd`. -/
def thrd (s : AssocSta) (a : StaAnswers) : AssocSta :=
  match s.pc with
  | .waitHw =>
      match s.hwLock with
      | none => { s with hwLock := some .thread, pc := .popStart }
      | some _ => s.suspend
  | .popStart => s.popStart
  | .send => s.send a
  | .waitMsg => s.await a
  | .exit => { s with brun := false, hwLock := none, prsn := s.reason, pc := .exited }
  | .exited => s

end AssocSta

/-! ## The callers -/

/-- `wf_auth_sta_start`, `wf_auth_sta_stop` and `auth_sta_recv` behind their tests of the
interface, the scheduler that calls a spawned thread, and the other users of the lock. -/
inductive StaEvent where
  | thrd (answers : StaAnswers)
  | spawn (junk : Int)
  | start
  | stop
  | recv (frame : List UInt8)
  | takeHw
  | freeHw

/-- `sizeof(auth_rsp_t)`. -/
def authSizeMax : Nat := 180

/-- `sizeof(assoc_rsp_t)`. -/
def assocSizeMax : Nat := 796

def otherTakes (hwLock : Option HwOwner) : Option HwOwner :=
  if hwLock = none then some .other else hwLock

def otherFrees (hwLock : Option HwOwner) : Option HwOwner :=
  if hwLock = some .other then none else hwLock

def authStep (s : AuthSta) : StaEvent → AuthSta
  | .thrd a => s.thrd a
  | .spawn junk => if s.pc = .exited then { s with reason := junk, pc := .waitHw } else s
  | .start => { s with q := s.q.post .start }
  | .stop => if s.brun then { s with q := s.q.post .abort } else s
  | .recv frame =>
      if frame.length = 0 ∨ authSizeMax < frame.length then s
      else { s with q := s.q.postFrame frame }
  | .takeHw => { s with hwLock := otherTakes s.hwLock }
  | .freeHw => { s with hwLock := otherFrees s.hwLock }

def assocStep (s : AssocSta) : StaEvent → AssocSta
  | .thrd a => s.thrd a
  | .spawn _ => if s.pc = .exited then { s with reason := tagDone, pc := .waitHw } else s
  | .start => { s with q := s.q.post .start }
  | .stop => if s.brun then { s with q := s.q.post .abort } else s
  | .recv frame =>
      if frame.length = 0 ∨ assocSizeMax < frame.length then s
      else { s with q := s.q.postFrame frame }
  | .takeHw => { s with hwLock := otherTakes s.hwLock }
  | .freeHw => { s with hwLock := otherFrees s.hwLock }

end Smartchip.Mlme
