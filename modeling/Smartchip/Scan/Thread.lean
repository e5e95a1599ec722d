import Smartchip.Foundation.Run
import Smartchip.Scan.Filter
import Smartchip.Utility.Message

/-!
# The scan thread

`wf_scan_thrd` of `nic/scan.c` with the callers around it.  A step is one access of the
thread to what it shares, or one wait that it finds over or not; between any two of
them `wf_scan_start`, `wf_scan_stop` and `wf_scan_filter` take steps of their own.  What
the hardware and the other interfaces answer is given with each step.

The thread is stackless: a call that has to wait returns, and the next call begins
with new local variables.
-/

namespace Smartchip.Scan

open Smartchip.Foundation Smartchip.Frame Smartchip.Utility

universe u

inductive ScanTag where
  | abort
  | start
  deriving DecidableEq

def tagAbort : Int := 0

def tagDone : Int := 0x81

/-- `tag | WF_MSG_TAG_ID_MSK`. -/
def ScanTag.urgency : ScanTag → Nat
  | .abort => 0x7F
  | .start => 0xFF

inductive McuResult where
  | ok
  | fail
  | busy
  deriving DecidableEq

/-- What a scan sets: the media status, the filter of beacons and probe responses, the
channel, and the BSSID of that filter, which no longer is the one from before. -/
structure Settings where
  mediaNull : Bool
  filterOff : Bool
  offChannel : Bool
  bssidMoved : Bool
  deriving DecidableEq

/-- What `scan_setting_recover` puts back. -/
def Settings.recoverable (hw : Settings) : Bool := hw.mediaNull || hw.filterOff || hw.offChannel

def Settings.applied (hw : Settings) : Bool := hw.recoverable || hw.bssidMoved

/-- The answers to the calls that a step can make.  `found` is the channel of the node in
the scan results with the requested BSSID, `filterBssid` what the register of
`wf_mcu_set_bssid` holds, `p2p` whether a P2P interface is valid and then whether it is in
one of the two states that send probe requests, and `junk` what a local variable holds
that nobody has set. -/
structure Answers where
  txEmpty : Bool
  expired : Bool
  mediaStatus : McuResult
  mlmeScan : McuResult
  bssid : McuResult
  filterBssid : Vector UInt8 6
  backup : McuResult
  channel : McuResult
  found : Option UInt8
  channelSet : List UInt8
  p2p : Option Bool
  send : Int
  buddy : Bool
  resumeBcn : Bool
  junk : Int

/-- Where the thread is, named after what it does next. -/
inductive Pc where
  | waitHw
  | popStart
  | setReq
  | cutTx
  | drain
  | setting
  | setRun
  | chTest
  | probe
  | activeWait
  | passiveWait
  | pauseTest
  | pauseWait
  | pauseEnd
  | chNext
  | done
  | exit
  | clearRun
  | resumeTx
  | waitReq
  | delReq
  | clearReq
  | postReq
  | unlockHw
  | exited
  deriving DecidableEq

/-- Why a run came to its end; `stray` is the value of a variable that nobody set. -/
inductive Cause where
  | failed (code : Int)
  | aborted
  | done
  | stray
  deriving DecidableEq

inductive HwOwner where
  | thread
  | other
  deriving DecidableEq

inductive ReqOwner (Party : Type u) where
  | thread
  | filter (party : Party)
  deriving DecidableEq

/-- Where a call of `wf_scan_filter` is: outside, past the test of `brun`, or past
`wf_os_api_sema_try`. -/
inductive FilterPc where
  | out
  | gate
  | inside
  deriving DecidableEq

/-- The locks remember who took them.  `preq` says whether the pointer is set: it can
only point to `req`, the value of the one START message.  The last fields count and
record for the specification: how often the thread cut the transmission off, resumed
it, took the START message and put it back, why the run ended, and the channels it is
to scan and has scanned. -/
structure ScanSystem (Party : Type u) where
  pc : Pc
  reason : Int
  rst : Int
  chIdx : Nat
  retryCnt : Nat
  prsn : Int
  brun : Bool
  preq : Bool
  req : ScanReq
  que : MsgQue ScanTag
  reqLock : Option (ReqOwner Party)
  hwLock : Option HwOwner
  hw : Settings
  filters : Party → FilterPc
  stopping : Nat
  txCut : Nat
  txResumed : Nat
  taken : Nat
  returned : Nat
  cause : Option Cause
  target : List UInt8
  scanned : List UInt8

/-! ## The settings -/

def fixChannel (req : ScanReq) (found : Option UInt8) : ScanReq :=
  match found with
  | some channel =>
      if req.chMap = [] ∨ channel ∈ req.chMap then { req with chMap := [channel] } else req
  | none => req

/-- `scan_setting` from the choice of the channels on. -/
def settingEnd (req : ScanReq) (hw : Settings) (a : Answers) : Int × ScanReq × Settings :=
  let req := if req.chMap = [] then { req with chMap := a.channelSet } else req
  if a.backup ≠ .ok then (-7, req, hw) else (0, req, hw)

/-- A call that fails changes nothing. -/
def scanSetting (req : ScanReq) (hw : Settings) (a : Answers) : Int × ScanReq × Settings :=
  match req.type with
  | .passive =>
      if a.mediaStatus ≠ .ok then (-2, req, hw)
      else
        let hw := { hw with mediaNull := true }
        if a.mlmeScan ≠ .ok then (-3, req, hw)
        else settingEnd req { hw with filterOff := true } a
  | .active =>
      if isValidBssid req.bssid.toList then
        let req := fixChannel req a.found
        if a.bssid ≠ .ok then (-5, req, hw)
        else
          settingEnd req
            { hw with bssidMoved := hw.bssidMoved || req.bssid ≠ a.filterBssid } a
      else if a.mlmeScan ≠ .ok then (-6, req, hw)
      else settingEnd req { hw with filterOff := true } a

def scanSettingRecover (hw : Settings) (a : Answers) : Settings :=
  let hw := if a.mediaStatus = .ok then { hw with mediaNull := false } else hw
  match a.channel with
  | .fail => hw
  | channel =>
      let hw := if channel = .ok then { hw with offChannel := false } else hw
      if a.mlmeScan = .ok then { hw with filterOff := false } else hw

section Steps

variable {Party : Type u}

/-! ## The thread -/

/-- The call returns, and the next one begins with new local variables. -/
def suspend (s : ScanSystem Party) (a : Answers) : ScanSystem Party :=
  { s with reason := tagDone, rst := a.junk }

def fail (s : ScanSystem Party) (code : Int) : ScanSystem Party :=
  { s with reason := code, cause := some (.failed code), pc := .exit }

/-- The loop around `PT_WAIT_UNTIL` that ends with a message or with the timer. -/
def awaitAbort (s : ScanSystem Party) (a : Answers)
    (timeout : ScanSystem Party → ScanSystem Party) : ScanSystem Party :=
  match wfMsgPop s.que with
  | some (.abort, que) =>
      { s with
        que := wfMsgDel que .abort
        reason := tagAbort
        cause := some .aborted
        pc := .done }
  | some (.start, que) => { s with que := wfMsgDel que .start }
  | none => if a.expired then timeout s else suspend s a

def popStart (s : ScanSystem Party) (a : Answers) : ScanSystem Party :=
  match wfMsgPop s.que with
  | none =>
      { s with hwLock := none, prsn := -1, cause := some (.failed (-1)), pc := .exited }
  | some (.start, que) => { s with que, taken := s.taken + 1, pc := .setReq }
  | some (.abort, que) => suspend { s with que := wfMsgDel que .abort } a

def drain (s : ScanSystem Party) (a : Answers) : ScanSystem Party :=
  if a.txEmpty then { s with pc := .setting }
  else
    match wfMsgPop s.que with
    | some (.abort, que) =>
        { s with
          que := wfMsgDel que .abort
          reason := -2
          cause := some .aborted
          pc := .exit }
    | some (.start, que) =>
        if a.expired then fail { s with que } (-3)
        else suspend { s with que := wfMsgDel que .start } a
    | none => if a.expired then fail s (-3) else suspend s a

def setting (s : ScanSystem Party) (a : Answers) : ScanSystem Party :=
  let set := scanSetting s.req s.hw a
  let s := { s with req := set.2.1, hw := set.2.2 }
  if set.1 ≠ 0 then fail s (-4) else { s with pc := .setRun }

def chTest (s : ScanSystem Party) (a : Answers) : ScanSystem Party :=
  if s.chIdx < s.req.chMap.length then
    if a.channel ≠ .ok then fail s (-5)
    else
      let s := { s with hw := { s.hw with offChannel := true }, rst := 0, retryCnt := 0 }
      match s.req.type with
      | .active => { s with pc := .probe }
      | .passive => { s with pc := .passiveWait }
  else { s with reason := tagDone, cause := some .done, pc := .done }

/-- A P2P interface outside its two states sends nothing, and `rst` stays what it is. -/
def probe (prbTimes : Nat) (s : ScanSystem Party) (a : Answers) : ScanSystem Party :=
  if s.retryCnt < prbTimes then
    match a.p2p with
    | some false =>
        if s.rst ≠ 0 then { s with reason := -6, cause := some .stray, pc := .exit }
        else { s with pc := .activeWait }
    | _ => if a.send ≠ 0 then fail s (-6) else { s with rst := a.send, pc := .activeWait }
  else { s with pc := .pauseTest }

def pauseTest (s : ScanSystem Party) (a : Answers) : ScanSystem Party :=
  if a.buddy ∧ (s.chIdx + 1) % 5 = 0 then
    if a.channel = .fail then fail s (-7)
    else
      let hw := if a.channel = .ok then { s.hw with offChannel := false } else s.hw
      let hw := if a.mlmeScan = .ok then { hw with filterOff := false } else hw
      { s with hw, pc := if a.resumeBcn then .pauseWait else .pauseEnd }
  else { s with pc := .chNext }

/-- One step of the thread. -/
def thrdStep (prbTimes : Nat) (s : ScanSystem Party) (a : Answers) : ScanSystem Party :=
  match s.pc with
  | .waitHw =>
      match s.hwLock with
      | none => { s with hwLock := some .thread, pc := .popStart }
      | some _ => suspend s a
  | .popStart => popStart s a
  | .setReq => { s with preq := true, pc := .cutTx }
  | .cutTx => { s with txCut := s.txCut + 1, pc := .drain }
  | .drain => drain s a
  | .setting => setting s a
  | .setRun =>
      { s with
        brun := true
        chIdx := 0
        target := s.req.chMap
        scanned := []
        pc := .chTest }
  | .chTest => chTest s a
  | .probe => probe prbTimes s a
  | .activeWait =>
      awaitAbort s a fun s => { s with retryCnt := s.retryCnt + 1, pc := .probe }
  | .passiveWait => awaitAbort s a fun s => { s with pc := .pauseTest }
  | .pauseTest => pauseTest s a
  | .pauseWait => awaitAbort s a fun s => { s with pc := .pauseEnd }
  | .pauseEnd =>
      if a.mlmeScan ≠ .ok then fail s (-8)
      else { s with hw := { s.hw with filterOff := true }, pc := .chNext }
  | .chNext =>
      { s with
        scanned := s.scanned ++ s.req.chMap[s.chIdx]?.toList
        chIdx := s.chIdx + 1
        pc := .chTest }
  | .done => { s with pc := .exit }
  | .exit =>
      if s.brun then { s with hw := scanSettingRecover s.hw a, pc := .clearRun }
      else { s with pc := .resumeTx }
  | .clearRun => { s with brun := false, pc := .resumeTx }
  | .resumeTx => { s with txResumed := s.txResumed + 1, pc := .waitReq }
  | .waitReq =>
      match s.reqLock with
      | none => { s with reqLock := some .thread, pc := .delReq }
      | some _ => suspend s a
  | .delReq =>
      { s with que := wfMsgDel s.que .start, returned := s.returned + 1, pc := .clearReq }
  | .clearReq => { s with preq := false, pc := .postReq }
  | .postReq => { s with reqLock := none, pc := .unlockHw }
  | .unlockHw => { s with hwLock := none, prsn := s.reason, pc := .exited }
  | .exited => s

/-! ## The callers -/

/-- `wf_scan_start`: the request goes into the START message, if that is free. -/
def wfScanStart (s : ScanSystem Party) (req : ScanReq) : ScanSystem Party :=
  match wfMsgNew s.que fun tag => tag = .start with
  | none => s
  | some (msg, que) =>
      { s with
        req := {
          type := req.type
          bssid := if isValidBssid req.bssid.toList then req.bssid else Vector.replicate 6 0
          ssids := req.ssids.take 9
          chMap := req.chMap.take 14 }
        que := wfMsgPush ScanTag.urgency que msg }

/-- `wf_scan_stop` behind its test of `brun`. -/
def stopPush (s : ScanSystem Party) : ScanSystem Party :=
  if s.stopping = 0 then s
  else
    let s := { s with stopping := s.stopping - 1 }
    match wfMsgNew s.que fun tag => tag = .abort with
    | none => s
    | some (msg, que) => { s with que := wfMsgPush ScanTag.urgency que msg }

inductive ScanEvent (Party : Type u) where
  | thrd (answers : Answers)
  | spawn (junk : Int)
  | start (req : ScanReq)
  | stop
  | stopPush
  | takeHw
  | freeHw
  | filterTest (party : Party)
  | filterTry (party : Party)
  | filterRead (party : Party)
  | filterPost (party : Party)

variable [DecidableEq Party]

def setFilter (s : ScanSystem Party) (party : Party) (pc : FilterPc) : ScanSystem Party :=
  { s with filters := Function.update s.filters party pc }

@[simp] theorem setFilter_self (s : ScanSystem Party) (party : Party) (pc : FilterPc) :
    (setFilter s party pc).filters party = pc :=
  Function.update_self ..

theorem setFilter_other (s : ScanSystem Party) {party other : Party} (ne : other ≠ party)
    (pc : FilterPc) : (setFilter s party pc).filters other = s.filters other :=
  Function.update_of_ne ne ..

/-- `wf_scan_filter` from its test of `brun` to its last access, one function for each. -/
def filterTest (s : ScanSystem Party) (party : Party) : ScanSystem Party :=
  if s.filters party = .out ∧ s.brun then setFilter s party .gate else s

def filterTry (s : ScanSystem Party) (party : Party) : ScanSystem Party :=
  if s.filters party = .gate then
    match s.reqLock with
    | none => setFilter { s with reqLock := some (.filter party) } party .inside
    | some _ => setFilter s party .out
  else s

def filterPost (s : ScanSystem Party) (party : Party) : ScanSystem Party :=
  if s.filters party = .inside then setFilter { s with reqLock := none } party .out else s

/-- Only the thread, a caller in the right place or a free lock moves; any other event
does nothing. -/
def scanStep (prbTimes : Nat) (s : ScanSystem Party) :
    ScanEvent Party → Option (ScanSystem Party)
  | .thrd a => some (thrdStep prbTimes s a)
  | .spawn junk =>
      some (if s.pc = .exited then
        { s with pc := .waitHw, reason := tagDone, rst := junk, cause := none }
      else s)
  | .start req => some (wfScanStart s req)
  | .stop => some (if s.brun then { s with stopping := s.stopping + 1 } else s)
  | .stopPush => some (stopPush s)
  | .takeHw => some (if s.hwLock = none then { s with hwLock := some .other } else s)
  | .freeHw => some (if s.hwLock = some .other then { s with hwLock := none } else s)
  | .filterTest party => some (filterTest s party)
  | .filterTry party => some (filterTry s party)
  | .filterRead _ => some s
  | .filterPost party => some (filterPost s party)

/-- `wf_scan_init`: the pool has one message of each kind. -/
def scanInit : ScanSystem Party where
  pc := .exited
  reason := tagDone
  rst := 0
  chIdx := 0
  retryCnt := 0
  prsn := 0
  brun := false
  preq := false
  req := ⟨.active, Vector.replicate 6 0, [], []⟩
  que := ⟨[], [.abort, .start]⟩
  reqLock := none
  hwLock := none
  hw := ⟨false, false, false, false⟩
  filters := fun _ => .out
  stopping := 0
  txCut := 0
  txResumed := 0
  taken := 0
  returned := 0
  cause := none
  target := []
  scanned := []

end Steps

end Smartchip.Scan
