import Smartchip.Foundation.Mutex
import Smartchip.Mlme.Exchange

/-!
# The MLME thread of a station

`mlme_core_thrd` of `nic/mlme.c` with the threads that it runs one at a time.  Several
interfaces have such a thread, and they share the lock of the hardware.  A step of an
interface is one step of the innermost thread that runs on it; the loops around
`wf_scan_thrd`, `wf_auth_sta_thrd` and `wf_assoc_sta_thrd` look at the messages in steps
of their own.  Which message the queue gives and what the calls return comes with each
step.
-/

namespace Smartchip.Mlme

open Smartchip.Foundation Smartchip.Frame Smartchip.Utility
open Smartchip.Scan (HwOwner ScanSystem ScanEvent ScanReq Answers)

universe u v

inductive MlmeState where
  | scan
  | connScan
  | auth
  | assoc
  | deauth
  | addBaResp
  | addBaReq
  | idle
  deriving DecidableEq

/-- `state <= MLME_STATE_ASSOC`. -/
def MlmeState.upToAssoc : MlmeState → Bool
  | .scan | .connScan | .auth | .assoc => true
  | .deauth | .addBaResp | .addBaReq | .idle => false

inductive MlmeTag where
  | scanAbort
  | scanRsp
  | connAbort
  | deauth
  | deassoc
  | p2p
  | scan
  | conn
  | addBaReq
  | addBaRsp
  | keepalive
  deriving DecidableEq

/-- `indicateEn` is that of a connection request. -/
structure MlmeMsg where
  tag : MlmeTag
  indicateEn : Bool

/-- `core_scan_thrd`, `core_conn_scan_thrd`, `core_conn_maintain_scan_thrd` and
`core_conn_maintain_probe_thrd`, which all run the scan thread. -/
inductive ScanCaller where
  | request
  | connect
  | maintain
  | probe
  deriving DecidableEq

/-- The threads that take the lock of the hardware. -/
inductive SubThread where
  | scan
  | auth
  | assoc
  | preconnect
  | deauth
  | baReq
  | baRsp
  deriving DecidableEq

/-- Where the MLME thread is.  In a `Wait` it has stopped a thread and waits for its end;
at a `Body` the thread has the lock. -/
inductive CorePc where
  | idle
  | scanStart (caller : ScanCaller)
  | scanRun (caller : ScanCaller)
  | scanWait (caller : ScanCaller) (found : Bool)
  | buildWdn
  | authStart
  | authRun
  | authWait
  | assocStart
  | assocRun
  | assocWait
  | preconnect
  | preconnectBody
  | setConnect
  | maintain
  | deauth
  | deauthBody
  | baReq
  | baReqBody
  | baRsp
  | baRspBody
  | connBreak
  | clearup
  | clearupWait
  | p2p
  deriving DecidableEq

def CorePc.subThread : CorePc → Option SubThread
  | .scanRun _ | .scanWait _ _ => some .scan
  | .authRun | .authWait => some .auth
  | .assocRun | .assocWait => some .assoc
  | .preconnect | .preconnectBody => some .preconnect
  | .deauth | .deauthBody => some .deauth
  | .baReq | .baReqBody => some .baReq
  | .baRsp | .baRspBody => some .baRsp
  | _ => none

/-- `pwdn` is `pmlme_info->pwdn_info` by the address of the WDN, `wdns` the addresses of
the WDNs of the interface. -/
structure MlmeNic (Party : Type u) where
  pc : CorePc
  state : MlmeState
  scan : ScanSystem Party
  auth : AuthSta
  assoc : AssocSta
  connect : Bool
  indicateEn : Bool
  tryCnt : UInt8
  pwdn : Option MacAddr
  wdns : List MacAddr
  curBssid : MacAddr

/-- The answers to the calls of a step.  `started` is for the functions that start a
thread, `wdnReady` for `wf_wdn_data_update` and `hw_cfg`, `dsFound` and `netOk` for the
two parts of `set_cur_network`, and `ended` for the waits that end otherwise. -/
structure CoreAnswers where
  msg : Option MlmeMsg
  babortThrd : Bool
  scan : Answers
  req : ScanReq
  sta : StaAnswers
  started : Bool
  wdnFree : Bool
  wdnReady : Bool
  rateFail : Bool
  dsFound : Bool
  netOk : Bool
  bssid : MacAddr
  ended : Bool

/-! ## The lock -/

section Steps

variable {Party : Type u}

/-- What a step of `wf_scan_thrd` does with the lock. -/
def scanLockAct (s : ScanSystem Party) : Option LockAct :=
  match s.pc with
  | .waitHw => if s.hwLock = none then some .take else none
  | .popStart => if (wfMsgPop s.que).isNone then some .unlock else none
  | .unlockHw => some .unlock
  | _ => none

def authLockAct (s : AuthSta) : Option LockAct :=
  match s.pc with
  | .waitHw => if s.hwLock = none then some .take else none
  | .popStart => if (wfMsgPop s.q.que).isNone then some .unlock else none
  | .exit => some .unlock
  | _ => none

def assocLockAct (s : AssocSta) : Option LockAct :=
  match s.pc with
  | .waitHw => if s.hwLock = none then some .take else none
  | .popStart => if (wfMsgPop s.q.que).isNone then some .unlock else none
  | .exit => some .unlock
  | _ => none

/-! ## The thread -/

/-- The interface after a step, what the running thread did with the lock, and whether
that thread has finished. -/
structure CoreOut (Party : Type u) where
  nic : MlmeNic Party
  act : Option LockAct
  finished : Bool

def MlmeNic.goto (s : MlmeNic Party) (pc : CorePc) : MlmeNic Party := { s with pc }

def CoreOut.of (nic : MlmeNic Party) : CoreOut Party := ⟨nic, none, false⟩

/-- The end of a round of `mlme_core_thrd`. -/
def restart (s : MlmeNic Party) : MlmeNic Party := { s with state := .idle, pc := .idle }

/-- The loop of `core_conn_maintain_msg_thrd` begins again. -/
def maintainAgain (s : MlmeNic Party) : MlmeNic Party :=
  { s with state := .idle, pc := .maintain }

def idle (s : MlmeNic Party) (a : CoreAnswers) : MlmeNic Party :=
  if a.babortThrd then s
  else
    match a.msg with
    | none => s
    | some msg =>
        match msg.tag with
        | .scan => { s with state := .scan, pc := .scanStart .request }
        | .conn =>
            { s with
              state := .connScan
              indicateEn := msg.indicateEn
              tryCnt := 3
              pc := .scanStart .connect }
        | .p2p => { s with pc := .p2p }
        | _ => restart s

/-- What becomes of the caller when it cannot start the scan. -/
def scanFailed (s : MlmeNic Party) : ScanCaller → MlmeNic Party
  | .request => restart s
  | .connect => s.goto .connBreak
  | .maintain | .probe => maintainAgain s

def scanStart (s : MlmeNic Party) (caller : ScanCaller) (a : CoreAnswers) : MlmeNic Party :=
  if a.started then
    let scan := Scan.wfScanStart s.scan a.req
    let scan := { scan with
      pc := .waitHw
      reason := Scan.tagDone
      rst := a.scan.junk
      cause := none }
    { s with scan, pc := .scanRun caller }
  else scanFailed s caller

/-- The scan thread has ended, and its caller still asked for results. -/
def scanEnded (s : MlmeNic Party) (caller : ScanCaller) : MlmeNic Party :=
  match caller with
  | .request => restart s
  | .connect =>
      if s.scan.prsn = Scan.tagDone then
        let left := s.tryCnt - 1
        { s with tryCnt := left, pc := if left ≠ 0 then .scanStart .connect else .connBreak }
      else s.goto .connBreak
  | .maintain | .probe => maintainAgain s

def scanStopped (s : MlmeNic Party) (caller : ScanCaller) (found : Bool) : MlmeNic Party :=
  match caller with
  | .request => restart s
  | .connect => if found then s.goto .buildWdn else s.goto .connBreak
  | .maintain | .probe => maintainAgain s

/-- One step of the scan thread; `next` is for its end. -/
def stepScan (prbTimes : Nat) (lock : SubThread → Option HwOwner) (s : MlmeNic Party)
    (a : CoreAnswers) (next : MlmeNic Party → MlmeNic Party) : CoreOut Party :=
  let before := { s.scan with hwLock := lock .scan }
  let s := { s with scan := Scan.thrdStep prbTimes before a.scan }
  if s.scan.pc = .exited then ⟨next s, scanLockAct before, true⟩
  else ⟨s, scanLockAct before, false⟩

def stepAuth (lock : SubThread → Option HwOwner) (s : MlmeNic Party) (a : CoreAnswers)
    (next : MlmeNic Party → MlmeNic Party) : CoreOut Party :=
  let before := { s.auth with hwLock := lock .auth }
  let s := { s with auth := before.thrd a.sta }
  if s.auth.pc = .exited then ⟨next s, authLockAct before, true⟩
  else ⟨s, authLockAct before, false⟩

def stepAssoc (lock : SubThread → Option HwOwner) (s : MlmeNic Party) (a : CoreAnswers)
    (next : MlmeNic Party → MlmeNic Party) : CoreOut Party :=
  let before := { s.assoc with hwLock := lock .assoc }
  let s := { s with assoc := before.thrd a.sta }
  if s.assoc.pc = .exited then ⟨next s, assocLockAct before, true⟩
  else ⟨s, assocLockAct before, false⟩

/-- `PT_WAIT_WHILE` on the lock. -/
def waitLock (lock : SubThread → Option HwOwner) (thread : SubThread) (s : MlmeNic Party)
    (body : CorePc) : CoreOut Party :=
  if lock thread = none then ⟨s.goto body, some .take, false⟩ else .of s

/-- The rest of a thread that gives the lock back and ends. -/
def unlocked (s : MlmeNic Party) : CoreOut Party := ⟨s, some .unlock, true⟩

def buildWdn (s : MlmeNic Party) (a : CoreAnswers) : MlmeNic Party :=
  if s.curBssid ∈ s.wdns ∨ a.wdnFree then
    let wdns := if s.curBssid ∈ s.wdns then s.wdns else s.wdns ++ [s.curBssid]
    let s := { s with pwdn := some s.curBssid, wdns }
    if a.wdnReady then { s with state := .auth, pc := .authStart } else s.goto .connBreak
  else { s with pwdn := none, pc := .connBreak }

def authStart (s : MlmeNic Party) (a : CoreAnswers) : MlmeNic Party :=
  if a.started then
    { s with
      auth := { s.auth with q := s.auth.q.post .start, reason := a.sta.junk, pc := .waitHw }
      pc := .authRun }
  else s.goto .connBreak

def authEnded (s : MlmeNic Party) : MlmeNic Party :=
  if s.auth.prsn = tagDone then { s with state := .assoc, pc := .assocStart }
  else s.goto .connBreak

def assocStart (s : MlmeNic Party) (a : CoreAnswers) : MlmeNic Party :=
  if a.started then
    { s with
      assoc := { s.assoc with q := s.assoc.q.post .start, pc := .waitHw }
      pc := .assocRun }
  else s.goto .connBreak

def assocEnded (s : MlmeNic Party) : MlmeNic Party :=
  if s.assoc.prsn = tagDone then s.goto .preconnect else s.goto .connBreak

/-- `core_conn_maintain_msg_thrd` at its message queue. -/
def maintain (s : MlmeNic Party) (a : CoreAnswers) : MlmeNic Party :=
  match a.msg with
  | none => s
  | some msg =>
      match msg.tag with
      | .scan => { s with state := .scan, pc := .scanStart .maintain }
      | .keepalive => { s with state := .scan, pc := .scanStart .probe }
      | .deauth | .deassoc | .connAbort => { s with state := .deauth, pc := .deauth }
      | .addBaReq => { s with state := .addBaReq, pc := .baReq }
      | .addBaRsp => { s with state := .addBaResp, pc := .baRsp }
      | _ => maintainAgain s

/-- `core_conn_maintain_ba_req_thrd` and `core_conn_maintain_ba_rsp_thrd` behind their
wait: without a WDN they end at once. -/
def baBody (s : MlmeNic Party) : CoreOut Party :=
  if s.pwdn = none then ⟨maintainAgain s, none, true⟩ else unlocked (maintainAgain s)

def connBreak (s : MlmeNic Party) : MlmeNic Party :=
  if s.indicateEn then { s with connect := false, pc := .clearup } else s.goto .clearup

def zeroAddr : MacAddr := Vector.replicate 6 0

/-- `mlme_conn_clearup` up to its wait. -/
def connClearup (s : MlmeNic Party) : MlmeNic Party :=
  let s := if s.pwdn = none then s
    else { s with wdns := s.wdns.erase s.curBssid, pwdn := none }
  { s with curBssid := zeroAddr, pc := .clearupWait }

/-- One step of the MLME thread, or of the thread that it runs. -/
def coreStep (prbTimes : Nat) (lock : SubThread → Option HwOwner) (s : MlmeNic Party)
    (a : CoreAnswers) : CoreOut Party :=
  match s.pc with
  | .idle => .of (idle s a)
  | .scanStart caller => .of (scanStart s caller a)
  | .scanRun caller => stepScan prbTimes lock s a fun s => scanEnded s caller
  | .scanWait caller found => stepScan prbTimes lock s a fun s => scanStopped s caller found
  | .buildWdn => .of (buildWdn s a)
  | .authStart => .of (authStart s a)
  | .authRun => stepAuth lock s a authEnded
  | .authWait => stepAuth lock s a fun s => s.goto .connBreak
  | .assocStart => .of (assocStart s a)
  | .assocRun => stepAssoc lock s a assocEnded
  | .assocWait => stepAssoc lock s a fun s => s.goto .connBreak
  | .preconnect => waitLock lock .preconnect s .preconnectBody
  | .preconnectBody => unlocked (s.goto (if a.rateFail then .connBreak else .setConnect))
  | .setConnect => .of (maintainAgain { s with connect := true })
  | .maintain => .of (maintain s a)
  | .deauth => waitLock lock .deauth s .deauthBody
  | .deauthBody => unlocked (s.goto .connBreak)
  | .baReq => waitLock lock .baReq s .baReqBody
  | .baReqBody => baBody s
  | .baRsp => waitLock lock .baRsp s .baRspBody
  | .baRspBody => baBody s
  | .connBreak => .of (connBreak s)
  | .clearup => .of (connClearup s)
  | .clearupWait => .of (if a.ended then restart s else s)
  | .p2p => .of (if a.ended then restart s else s)

/-! ## The loops around the threads -/

/-- `wf_scan_stop`. -/
def wfScanStop (s : MlmeNic Party) : MlmeNic Party :=
  if s.scan.brun then
    { s with scan := Scan.stopPush { s.scan with stopping := s.scan.stopping + 1 } }
  else s

def stopScan (s : MlmeNic Party) (caller : ScanCaller) (found : Bool) : MlmeNic Party :=
  (wfScanStop s).goto (.scanWait caller found)

/-- `set_cur_network` fails before it sets the BSSID or behind that. -/
def setCurNetwork (s : MlmeNic Party) (a : CoreAnswers) : MlmeNic Party × Bool :=
  if a.dsFound then ({ s with curBssid := a.bssid }, a.netOk) else (s, false)

def lookScan (s : MlmeNic Party) (a : CoreAnswers) (tag : MlmeTag) :
    ScanCaller → MlmeNic Party
  | .request =>
      match tag with
      | .scanAbort => stopScan s .request false
      | _ => s
  | .connect =>
      match tag with
      | .connAbort | .scanAbort => stopScan s .connect false
      | .scanRsp =>
          let set := setCurNetwork s a
          stopScan set.1 .connect set.2
      | _ => s
  | .maintain =>
      match tag with
      | .scanAbort | .connAbort | .deauth | .deassoc => stopScan s .maintain false
      | _ => s
  | .probe =>
      match tag with
      | .scanAbort | .scanRsp | .connAbort | .deauth | .deassoc => stopScan s .probe false
      | _ => s

/-- `wf_auth_sta_stop` and `wf_assoc_stop` at a message that ends the connection. -/
def lookExchange (s : MlmeNic Party) (tag : MlmeTag) : MlmeNic Party :=
  match tag with
  | .connAbort | .deauth =>
      match s.pc with
      | .authRun => { s with auth := authStep s.auth .stop, pc := .authWait }
      | .assocRun => { s with assoc := assocStep s.assoc .stop, pc := .assocWait }
      | _ => s
  | _ => s

/-- A loop looks at its messages while the thread that it runs waits. -/
def look (s : MlmeNic Party) (a : CoreAnswers) : MlmeNic Party :=
  match a.msg with
  | none => s
  | some msg =>
      match s.pc with
      | .scanRun caller => lookScan s a msg.tag caller
      | _ => lookExchange s msg.tag

end Steps

/-! ## The interfaces together -/

section System

variable {Nic : Type v} {Party : Type u}

/-- For the specification: who gave the lock back and who had it then, and the threads
that finished with how often they had taken the lock and given it back. -/
inductive LockEntry (Nic : Type v) where
  | unlocked (caller : Nic × SubThread) (holder : Option (Nic × SubThread))
  | finished (thread : Nic × SubThread) (taken released : Nat)
      (holder : Option (Nic × SubThread))

/-- `taken` and `released` count, for the specification, how often the lock has been taken
and given back at an interface since a thread finished there. -/
structure MlmeSystem (Nic : Type v) (Party : Type u) where
  nic : Nic → MlmeNic Party
  hw : Option (Nic × SubThread)
  taken : Nic → Nat
  released : Nic → Nat
  log : List (LockEntry Nic)

/-- A step of an interface, and what others do with it at any time: the rx path and the
system call into the scan, frames are received, and `_connect_cb` of cfg80211 sets the
BSSID of the network that it wants. -/
inductive MlmeEvent (Nic : Type v) (Party : Type u) where
  | core (nic : Nic) (answers : CoreAnswers)
  | look (nic : Nic) (answers : CoreAnswers)
  | scan (nic : Nic) (event : ScanEvent Party)
  | recvAuth (nic : Nic) (frame : List UInt8)
  | recvAssoc (nic : Nic) (frame : List UInt8)
  | connectCb (nic : Nic) (bssid : MacAddr)

variable [DecidableEq Nic] [DecidableEq Party]

/-- The lock as a thread sees it. -/
def hwView (hw : Option (Nic × SubThread)) (thread : Nic × SubThread) : Option HwOwner :=
  hw.map fun owner => if owner = thread then .thread else .other

def setNic (m : MlmeSystem Nic Party) (n : Nic) (nic : MlmeNic Party) : MlmeSystem Nic Party :=
  { m with nic := Function.update m.nic n nic }

def applyLock (m : MlmeSystem Nic Party) (thread : Nic × SubThread) :
    Option LockAct → MlmeSystem Nic Party
  | none => m
  | some .take =>
      { m with
        hw := some thread
        taken := Function.update m.taken thread.1 (m.taken thread.1 + 1) }
  | some .unlock =>
      { m with
        hw := none
        released := Function.update m.released thread.1 (m.released thread.1 + 1)
        log := m.log ++ [LockEntry.unlocked thread m.hw] }

def applyFinish (m : MlmeSystem Nic Party) (thread : Nic × SubThread) :
    MlmeSystem Nic Party :=
  let entry := LockEntry.finished thread (m.taken thread.1) (m.released thread.1) m.hw
  { m with
    taken := Function.update m.taken thread.1 0
    released := Function.update m.released thread.1 0
    log := m.log ++ [entry] }

/-- The state that `_connect_cb` tests is that of a connection under way. -/
def connectCb (s : MlmeNic Party) (bssid : MacAddr) : MlmeNic Party :=
  if s.state.upToAssoc then s else { s with curBssid := bssid }

/-- The parts of the scan that are not its thread. -/
def scanAside (s : ScanSystem Party) : ScanEvent Party → ScanSystem Party
  | .thrd _ | .spawn _ | .takeHw | .freeHw => s
  | .start req => Scan.wfScanStart s req
  | .stop => if s.brun then { s with stopping := s.stopping + 1 } else s
  | .stopPush => Scan.stopPush s
  | .filterTest party => Scan.filterTest s party
  | .filterTry party => Scan.filterTry s party
  | .filterRead _ => s
  | .filterPost party => Scan.filterPost s party

def coreEvent (prbTimes : Nat) (m : MlmeSystem Nic Party) (n : Nic) (a : CoreAnswers) :
    MlmeSystem Nic Party :=
  let out := coreStep prbTimes (fun thread => hwView m.hw (n, thread)) (m.nic n) a
  let next := setNic m n out.nic
  match (m.nic n).pc.subThread with
  | none => next
  | some thread =>
      let next := applyLock next (n, thread) out.act
      if out.finished then applyFinish next (n, thread) else next

def mlmeStep (prbTimes : Nat) (m : MlmeSystem Nic Party) :
    MlmeEvent Nic Party → Option (MlmeSystem Nic Party)
  | .core n a => some (coreEvent prbTimes m n a)
  | .look n a => some (setNic m n (look (m.nic n) a))
  | .scan n event =>
      let s := m.nic n
      some (setNic m n { s with scan := scanAside s.scan event })
  | .recvAuth n frame =>
      let s := m.nic n
      some (setNic m n { s with auth := authStep s.auth (.recv frame) })
  | .recvAssoc n frame =>
      let s := m.nic n
      some (setNic m n { s with assoc := assocStep s.assoc (.recv frame) })
  | .connectCb n bssid => some (setNic m n (connectCb (m.nic n) bssid))

/-- `wf_mlme_init`. -/
def nicInit : MlmeNic Party where
  pc := .idle
  state := .idle
  scan := Scan.scanInit
  auth := authSta
  assoc := assocSta
  connect := false
  indicateEn := false
  tryCnt := 0
  pwdn := none
  wdns := []
  curBssid := zeroAddr

def mlmeInit : MlmeSystem Nic Party := ⟨fun _ => nicInit, none, fun _ => 0, fun _ => 0, []⟩

end System

end Smartchip.Mlme
