import Smartchip.Mlme.Connect

/-!
# The lock of the hardware

The threads that an MLME thread runs take the lock and give it back by hand.  Where a
thread is says whether it has the lock, so only the owner gives it back, and a thread
that has finished has done so once.
-/

namespace Smartchip.Mlme

open Smartchip.Foundation Smartchip.Frame Smartchip.Utility
open Smartchip.Scan (HwOwner ScanSystem ScanEvent Answers)

universe u v

/-! ## The three threads with queues -/

def scanStage : Scan.Pc → Stage
  | .waitHw => .waiting
  | .exited => .off
  | _ => .holding

def authStage : AuthPc → Stage
  | .waitHw => .waiting
  | .exited => .off
  | _ => .holding

def assocStage : AssocPc → Stage
  | .waitHw => .waiting
  | .exited => .off
  | _ => .holding

@[simp] theorem scanStage_off {pc : Scan.Pc} : scanStage pc = .off ↔ pc = .exited := by
  cases pc <;> simp [scanStage]

@[simp] theorem authStage_off {pc : AuthPc} : authStage pc = .off ↔ pc = .exited := by
  cases pc <;> simp [authStage]

@[simp] theorem assocStage_off {pc : AssocPc} : assocStage pc = .off ↔ pc = .exited := by
  cases pc <;> simp [assocStage]

section Threads

variable {Party : Type u} {prbTimes : Nat}

theorem awaitAbort_stage {s : ScanSystem Party} {a : Answers}
    {timeout : ScanSystem Party → ScanSystem Party} (here : scanStage s.pc = .holding)
    (next : scanStage (timeout s).pc = .holding) :
    scanStage (Scan.awaitAbort s a timeout).pc = .holding := by
  unfold Scan.awaitAbort
  split
  · rfl
  · exact here
  · split_ifs
    · exact next
    · exact here

theorem drain_stage {s : ScanSystem Party} {a : Answers} (here : s.pc = .drain) :
    scanStage (Scan.drain s a).pc = .holding := by
  unfold Scan.drain Scan.fail Scan.suspend
  split_ifs
  · rfl
  · split <;> simp [scanStage]
  · split <;> simp [here, scanStage]

theorem chTest_stage {s : ScanSystem Party} {a : Answers} :
    scanStage (Scan.chTest s a).pc = .holding := by
  unfold Scan.chTest Scan.fail
  split_ifs
  · rfl
  · dsimp only
    split <;> rfl
  · rfl

theorem probe_stage {s : ScanSystem Party} {a : Answers} :
    scanStage (Scan.probe prbTimes s a).pc = .holding := by
  unfold Scan.probe Scan.fail
  split_ifs
  · split <;> rfl
  · split <;> rfl
  · split <;> rfl
  · split <;> rfl
  · rfl

theorem pauseTest_stage {s : ScanSystem Party} {a : Answers} :
    scanStage (Scan.pauseTest s a).pc = .holding := by
  unfold Scan.pauseTest Scan.fail
  split_ifs <;> simp [scanStage]

theorem thrdStep_moves {s : ScanSystem Party} {a : Answers} (live : s.pc ≠ .exited) :
    Moves (s.hwLock = none) (scanStage s.pc) (scanLockAct s)
      (scanStage (Scan.thrdStep prbTimes s a).pc) := by
  unfold Scan.thrdStep scanLockAct
  cases here : s.pc with
  | waitHw =>
      cases lock : s.hwLock with
      | none => exact .take rfl
      | some owner =>
          simp only [Scan.suspend, here]
          exact .stay .waiting nofun
  | popStart =>
      dsimp only
      unfold Scan.popStart
      cases pops : wfMsgPop s.que with
      | none => exact .unlock
      | some popped =>
          refine .inside rfl ?_ rfl
          obtain ⟨tag, que⟩ := popped
          cases tag with
          | start => rfl
          | abort => simp [Scan.suspend, here, scanStage]
  | unlockHw => exact .unlock
  | drain => exact .inside rfl (drain_stage here) rfl
  | setting =>
      dsimp only
      unfold Scan.setting Scan.fail
      dsimp only
      split_ifs
      · exact .inside rfl rfl rfl
      · exact .inside rfl rfl rfl
  | chTest => exact .inside rfl chTest_stage rfl
  | probe => exact .inside rfl probe_stage rfl
  | activeWait => exact .inside rfl (awaitAbort_stage (by rw [here]; rfl) rfl) rfl
  | passiveWait => exact .inside rfl (awaitAbort_stage (by rw [here]; rfl) rfl) rfl
  | pauseTest => exact .inside rfl pauseTest_stage rfl
  | pauseWait => exact .inside rfl (awaitAbort_stage (by rw [here]; rfl) rfl) rfl
  | pauseEnd =>
      dsimp only
      unfold Scan.fail
      split_ifs
      · exact .inside rfl rfl rfl
      · exact .inside rfl rfl rfl
  | exit =>
      dsimp only
      split_ifs
      · exact .inside rfl rfl rfl
      · exact .inside rfl rfl rfl
  | waitReq =>
      cases lock : s.reqLock with
      | none => exact .inside rfl rfl rfl
      | some owner => exact .inside rfl (by simp [Scan.suspend, here, scanStage]) rfl
  | exited => exact absurd here live
  | _ => exact .inside rfl rfl rfl

theorem seq2_stage (s : AuthSta) (msg : StaMsg) : authStage (s.seq2 msg).pc = .holding := by
  unfold AuthSta.seq2
  dsimp only
  split_ifs
  all_goals rfl

theorem seq4_stage (s : AuthSta) (msg : StaMsg) : authStage (s.seq4 msg).pc = .holding := by
  unfold AuthSta.seq4
  dsimp only
  split_ifs
  all_goals rfl

theorem await_stage {s : AuthSta} {a : StaAnswers} {again : AuthPc}
    {rsp : AuthSta → StaMsg → AuthSta} (here : authStage s.pc = .holding)
    (more : authStage again = .holding)
    (answers : ∀ s msg, authStage (rsp s msg).pc = .holding) :
    authStage (s.await a again rsp).pc = .holding := by
  unfold AuthSta.await
  split
  · split_ifs
    · exact more
    · exact here
  · dsimp only
    split
    · rfl
    · exact answers _ _
    · exact here

theorem authThrd_moves {s : AuthSta} {a : StaAnswers} (live : s.pc ≠ .exited) :
    Moves (s.hwLock = none) (authStage s.pc) (authLockAct s) (authStage (s.thrd a).pc) := by
  unfold AuthSta.thrd authLockAct
  cases here : s.pc with
  | waitHw =>
      cases lock : s.hwLock with
      | none => exact .take rfl
      | some owner =>
          simp only [AuthSta.suspend, here]
          exact .stay .waiting nofun
  | popStart =>
      dsimp only
      unfold AuthSta.popStart
      cases pops : wfMsgPop s.q.que with
      | none => exact .unlock
      | some popped =>
          refine .inside rfl ?_ rfl
          dsimp only
          split
          · rfl
          · simp [AuthSta.drop, AuthSta.suspend, here, authStage]
  | begin =>
      dsimp only
      unfold AuthSta.start
      dsimp only
      split_ifs
      · exact .inside rfl rfl rfl
      · exact .inside rfl rfl rfl
  | sendSeq1 =>
      dsimp only
      unfold AuthSta.sendSeq1
      split_ifs
      all_goals exact .inside rfl rfl rfl
  | waitSeq2 => exact .inside rfl (await_stage (by rw [here]; rfl) rfl seq2_stage) rfl
  | challenge =>
      refine .inside rfl ?_ rfl
      have stays : authStage s.pc = .holding := by rw [here]; rfl
      dsimp only
      unfold AuthSta.challenge
      split
      · exact stays
      · dsimp only
        split
        · exact stays
        · rfl
        · split_ifs
          · rfl
          · rfl
  | sendSeq3 =>
      dsimp only
      unfold AuthSta.sendSeq3
      split_ifs
      all_goals exact .inside rfl rfl rfl
  | waitSeq4 => exact .inside rfl (await_stage (by rw [here]; rfl) rfl seq4_stage) rfl
  | exit => exact .unlock
  | exited => exact absurd here live

theorem assocThrd_moves {s : AssocSta} {a : StaAnswers} (live : s.pc ≠ .exited) :
    Moves (s.hwLock = none) (assocStage s.pc) (assocLockAct s)
      (assocStage (s.thrd a).pc) := by
  unfold AssocSta.thrd assocLockAct
  cases here : s.pc with
  | waitHw =>
      cases lock : s.hwLock with
      | none => exact .take rfl
      | some owner =>
          simp only [AssocSta.suspend, here]
          exact .stay .waiting nofun
  | popStart =>
      dsimp only
      unfold AssocSta.popStart
      cases pops : wfMsgPop s.q.que with
      | none => exact .unlock
      | some popped =>
          refine .inside rfl ?_ rfl
          dsimp only
          split
          · rfl
          · simp [AssocSta.drop, AssocSta.suspend, here, assocStage]
  | send =>
      dsimp only
      unfold AssocSta.send
      split_ifs
      all_goals exact .inside rfl rfl rfl
  | waitMsg =>
      refine .inside rfl ?_ rfl
      dsimp only
      unfold AssocSta.await
      split
      · split_ifs
        · rfl
        · simp [AssocSta.suspend, here, assocStage]
      · dsimp only
        split
        · rfl
        · unfold AssocSta.rsp
          dsimp only
          split_ifs
          · rfl
          · rfl
        · simp [AssocSta.drop, here, assocStage]
  | exit => exact .unlock
  | exited => exact absurd here live

end Threads

/-! ## An interface -/

section Core

variable {Party : Type u} {s : MlmeNic Party} {a : CoreAnswers} {prbTimes : Nat}
  {lock : SubThread → Option HwOwner}

/-- The thread that is run and where it is. -/
def MlmeNic.stage (s : MlmeNic Party) : Option (SubThread × Stage) :=
  match s.pc with
  | .scanRun _ | .scanWait _ _ => some (.scan, scanStage s.scan.pc)
  | .authRun | .authWait => some (.auth, authStage s.auth.pc)
  | .assocRun | .assocWait => some (.assoc, assocStage s.assoc.pc)
  | .preconnect => some (.preconnect, .waiting)
  | .preconnectBody => some (.preconnect, .holding)
  | .deauth => some (.deauth, .waiting)
  | .deauthBody => some (.deauth, .holding)
  | .baReq => some (.baReq, .waiting)
  | .baReqBody => some (.baReq, .holding)
  | .baRsp => some (.baRsp, .waiting)
  | .baRspBody => some (.baRsp, .holding)
  | _ => none

theorem subThread_eq (s : MlmeNic Party) : s.pc.subThread = s.stage.map Prod.fst := by
  unfold MlmeNic.stage
  cases s.pc <;> rfl

/-- If a thread is run, it is one that has just been started. -/
def Fresh (s : MlmeNic Party) : Prop :=
  ∀ thread stage, s.stage = some (thread, stage) → stage = .waiting

theorem fresh_of_none (noThread : s.pc.subThread = none) : Fresh s := by
  intro thread stage here
  rw [subThread_eq, here] at noThread
  cases noThread

/-- A step of the thread that is run.  Behind its end no other has passed its wait. -/
structure LockStep (free : Prop) (thread : SubThread) (before : Stage)
    (out : CoreOut Party) : Prop where
  moves : ∃ after, Moves free before out.act after ∧ (out.finished = true ↔ after = .off) ∧
    (after ≠ .off → out.nic.stage = some (thread, after))
  ends : out.finished = true → Fresh out.nic

theorem lockStep_ite {free ended : Prop} [Decidable ended] {thread : SubThread}
    {before after : Stage} {act : Option LockAct} {nic next : MlmeNic Party}
    (moves : Moves free before act after) (off : after = .off ↔ ended)
    (here : nic.stage = some (thread, after)) (fresh : Fresh next) :
    LockStep free thread before
      (if ended then ⟨next, act, true⟩ else ⟨nic, act, false⟩) := by
  split_ifs with done
  · refine ⟨⟨after, moves, by simp [off, done], fun running => ?_⟩, fun _ => fresh⟩
    exact absurd (off.mpr done) running
  · exact ⟨⟨after, moves, by simp [off, done], fun _ => here⟩, nofun⟩

theorem stepScan_lock {next : MlmeNic Party → MlmeNic Party}
    (live : s.scan.pc ≠ .exited)
    (here : ∀ scan : ScanSystem Party,
      MlmeNic.stage { s with scan } = some (.scan, scanStage scan.pc))
    (fresh : ∀ scan, Fresh (next { s with scan })) :
    LockStep (lock .scan = none) .scan (scanStage s.scan.pc)
      (stepScan prbTimes lock s a next) := by
  exact lockStep_ite (thrdStep_moves (s := { s.scan with hwLock := lock .scan }) live)
    scanStage_off (here _) (fresh _)

theorem stepAuth_lock {next : MlmeNic Party → MlmeNic Party}
    (live : s.auth.pc ≠ .exited)
    (here : ∀ auth : AuthSta,
      MlmeNic.stage { s with auth } = some (.auth, authStage auth.pc))
    (fresh : ∀ auth, Fresh (next { s with auth })) :
    LockStep (lock .auth = none) .auth (authStage s.auth.pc) (stepAuth lock s a next) := by
  have moves := authThrd_moves (s := { s.auth with hwLock := lock .auth }) (a := a.sta) live
  exact lockStep_ite moves authStage_off (here _) (fresh _)

theorem stepAssoc_lock {next : MlmeNic Party → MlmeNic Party}
    (live : s.assoc.pc ≠ .exited)
    (here : ∀ assoc : AssocSta,
      MlmeNic.stage { s with assoc } = some (.assoc, assocStage assoc.pc))
    (fresh : ∀ assoc, Fresh (next { s with assoc })) :
    LockStep (lock .assoc = none) .assoc (assocStage s.assoc.pc)
      (stepAssoc lock s a next) := by
  have moves := assocThrd_moves (s := { s.assoc with hwLock := lock .assoc }) (a := a.sta)
    live
  exact lockStep_ite moves assocStage_off (here _) (fresh _)

theorem waitLock_lock {thread : SubThread} {body : CorePc}
    (here : s.stage = some (thread, .waiting))
    (there : (s.goto body).stage = some (thread, .holding)) :
    LockStep (lock thread = none) thread .waiting (waitLock lock thread s body) := by
  unfold waitLock
  split_ifs with free
  · exact ⟨⟨.holding, .take free, by simp, fun _ => there⟩, nofun⟩
  · exact ⟨⟨.waiting, .stay .waiting nofun, by simp [CoreOut.of], fun _ => here⟩, nofun⟩

theorem unlocked_lock {free : Prop} {thread : SubThread} (fresh : Fresh s) :
    LockStep free thread .holding (unlocked s) :=
  ⟨⟨.off, .unlock, by simp [unlocked], fun running => absurd rfl running⟩, fun _ => fresh⟩

theorem baBody_lock {free : Prop} {thread : SubThread} (wdn : s.pwdn ≠ none) :
    LockStep free thread .holding (baBody s) := by
  unfold baBody
  rw [if_neg wdn]
  exact unlocked_lock (fresh_of_none rfl)

theorem scanEnded_fresh (caller : ScanCaller) : Fresh (scanEnded s caller) := by
  apply fresh_of_none
  cases caller with
  | connect =>
      unfold scanEnded
      dsimp only
      split_ifs
      all_goals rfl
  | _ => rfl

theorem scanStopped_fresh (caller : ScanCaller) (found : Bool) :
    Fresh (scanStopped s caller found) := by
  apply fresh_of_none
  cases caller with
  | connect => cases found <;> rfl
  | _ => rfl

/-- The exits of the two block ack threads that keep the lock are for a connection without
a WDN, and there is none. -/
theorem coreStep_lock (joined : Joined s) {thread : SubThread} {before : Stage}
    (here : s.stage = some (thread, before)) (live : before ≠ .off) :
    LockStep (lock thread = none) thread before (coreStep prbTimes lock s a) := by
  have wdn : s.pc.phase = .connected → s.pwdn ≠ none := joined.connected
  unfold coreStep
  cases pc : s.pc
  all_goals
    unfold MlmeNic.stage at here
    rw [pc] at here
    dsimp only at here
    cases here
  case scanRun caller =>
    refine stepScan_lock (by simpa using live) (fun scan => ?_) fun scan => ?_
    · simp [MlmeNic.stage, pc]
    · exact scanEnded_fresh caller
  case scanWait caller found =>
    refine stepScan_lock (by simpa using live) (fun scan => ?_) fun scan => ?_
    · simp [MlmeNic.stage, pc]
    · exact scanStopped_fresh caller found
  case authRun =>
    refine stepAuth_lock (by simpa using live) (fun auth => ?_) fun auth => ?_
    · simp [MlmeNic.stage, pc]
    · unfold authEnded
      split_ifs
      · exact fresh_of_none rfl
      · exact fresh_of_none rfl
  case authWait =>
    refine stepAuth_lock (by simpa using live) (fun auth => ?_) fun auth => ?_
    · simp [MlmeNic.stage, pc]
    · exact fresh_of_none rfl
  case assocRun =>
    refine stepAssoc_lock (by simpa using live) (fun assoc => ?_) fun assoc => ?_
    · simp [MlmeNic.stage, pc]
    · unfold assocEnded
      split_ifs
      · intro thread stage here
        cases here
        rfl
      · exact fresh_of_none rfl
  case assocWait =>
    refine stepAssoc_lock (by simpa using live) (fun assoc => ?_) fun assoc => ?_
    · simp [MlmeNic.stage, pc]
    · exact fresh_of_none rfl
  case preconnect => exact waitLock_lock (by simp [MlmeNic.stage, pc]) rfl
  case preconnectBody =>
    refine unlocked_lock (fresh_of_none ?_)
    cases a.rateFail <;> rfl
  case deauth => exact waitLock_lock (by simp [MlmeNic.stage, pc]) rfl
  case deauthBody => exact unlocked_lock (fresh_of_none rfl)
  case baReq => exact waitLock_lock (by simp [MlmeNic.stage, pc]) rfl
  case baReqBody => exact baBody_lock (wdn (by rw [pc]; rfl))
  case baRsp => exact waitLock_lock (by simp [MlmeNic.stage, pc]) rfl
  case baRspBody => exact baBody_lock (wdn (by rw [pc]; rfl))

/-- Where no thread is run, a step can only start one. -/
theorem coreStep_fresh (noThread : s.pc.subThread = none) :
    Fresh (coreStep prbTimes lock s a).nic := by
  have still : Fresh s := fresh_of_none noThread
  unfold coreStep
  cases pc : s.pc with
  | idle =>
      dsimp only [CoreOut.of]
      unfold idle
      split_ifs
      · exact still
      · split
        · exact still
        · split
          all_goals exact fresh_of_none rfl
  | scanStart caller =>
      dsimp only [CoreOut.of]
      unfold scanStart
      split_ifs
      · intro thread stage here
        cases here
        rfl
      · cases caller
        all_goals exact fresh_of_none rfl
  | buildWdn =>
      apply fresh_of_none
      dsimp only [CoreOut.of]
      unfold buildWdn
      dsimp only
      split_ifs
      all_goals rfl
  | authStart =>
      dsimp only [CoreOut.of]
      unfold authStart
      split_ifs
      · intro thread stage here
        cases here
        rfl
      · exact fresh_of_none rfl
  | assocStart =>
      dsimp only [CoreOut.of]
      unfold assocStart
      split_ifs
      · intro thread stage here
        cases here
        rfl
      · exact fresh_of_none rfl
  | setConnect => exact fresh_of_none rfl
  | maintain =>
      dsimp only [CoreOut.of]
      unfold maintain
      split
      · exact still
      · split
        all_goals
          intro thread stage here
          cases here
          try rfl
  | connBreak =>
      apply fresh_of_none
      dsimp only [CoreOut.of]
      unfold connBreak
      split_ifs
      all_goals rfl
  | clearup => exact fresh_of_none rfl
  | clearupWait | p2p =>
      dsimp only [CoreOut.of]
      split_ifs
      · exact fresh_of_none rfl
      · exact still
  | _ =>
      rw [pc] at noThread
      cases noThread

theorem stopScan_stage {s' : MlmeNic Party} {caller : ScanCaller} (found : Bool)
    (here : s.pc = .scanRun caller) (same : s'.scan.pc = s.scan.pc) :
    (stopScan s' caller found).stage = s.stage := by
  have pushed : (wfScanStop s').scan.pc = s.scan.pc := by
    unfold wfScanStop
    split_ifs
    · exact Scan.stopPush_aside.pc.trans same
    · exact same
  simp only [MlmeNic.stage, here]
  exact congrArg (fun pc => some (SubThread.scan, scanStage pc)) pushed

/-- A look at the messages leaves the threads where they are. -/
theorem look_stage : (look s a).stage = s.stage := by
  unfold look
  split
  · rfl
  · split
    · rename_i caller here
      cases caller with
      | connect =>
          unfold lookScan
          dsimp only
          split
          · exact stopScan_stage _ here rfl
          · exact stopScan_stage _ here rfl
          · refine stopScan_stage _ here ?_
            unfold setCurNetwork
            split_ifs
            all_goals rfl
          · rfl
      | _ =>
          unfold lookScan
          dsimp only
          split
          all_goals first | exact stopScan_stage _ here rfl | rfl
    · unfold lookExchange
      split
      all_goals try rfl
      all_goals
        split
        · rename_i here
          simp only [MlmeNic.stage, here, authStep]
          split_ifs <;> rfl
        · rename_i here
          simp only [MlmeNic.stage, here, assocStep]
          split_ifs <;> rfl
        · rfl

theorem recvAuth_stage (frame : List UInt8) :
    MlmeNic.stage { s with auth := authStep s.auth (.recv frame) } = s.stage := by
  have same : (authStep s.auth (.recv frame)).pc = s.auth.pc := by
    simp only [authStep]
    split_ifs <;> rfl
  simp only [MlmeNic.stage, same]

theorem recvAssoc_stage (frame : List UInt8) :
    MlmeNic.stage { s with assoc := assocStep s.assoc (.recv frame) } = s.stage := by
  have same : (assocStep s.assoc (.recv frame)).pc = s.assoc.pc := by
    simp only [assocStep]
    split_ifs <;> rfl
  simp only [MlmeNic.stage, same]

theorem scanAside_stage [DecidableEq Party] (event : ScanEvent Party) :
    MlmeNic.stage { s with scan := scanAside s.scan event } = s.stage := by
  have same : (scanAside s.scan event).pc = s.scan.pc := by
    cases event with
    | start req => exact (Scan.wfScanStart_aside req).pc
    | stop =>
        simp only [scanAside]
        split_ifs <;> rfl
    | stopPush => exact Scan.stopPush_aside.pc
    | filterTest party =>
        simp only [scanAside, Scan.filterTest]
        split_ifs <;> rfl
    | filterTry party => exact (Scan.filterTry_aside party).pc
    | filterPost party =>
        simp only [scanAside, Scan.filterPost]
        split_ifs <;> rfl
    | _ => rfl
  simp only [MlmeNic.stage, same]

end Core

/-! ## Runs -/

section Run

variable {Nic : Type v} {Party : Type u}

/-- Only the owner gives the lock back, and a thread that finishes has taken the lock and
given it back once. -/
def LockEntry.Ok : LockEntry Nic → Prop
  | .unlocked caller holder => holder = some caller
  | .finished thread taken released holder =>
      taken = 1 ∧ released = 1 ∧ holder ≠ some thread

def Disciplined (m : MlmeSystem Nic Party) : Prop := ∀ entry ∈ m.log, entry.Ok

/-- How often a thread has taken the lock. -/
def takenAt : Option (SubThread × Stage) → Nat
  | some (_, .holding) => 1
  | _ => 0

theorem Fresh.takenAt {s : MlmeNic Party} (fresh : Fresh s) : takenAt s.stage = 0 := by
  cases here : s.stage with
  | none => rfl
  | some entry =>
      obtain ⟨thread, stage⟩ := entry
      rw [fresh thread stage here]
      rfl

structure LockOk (m : MlmeSystem Nic Party) : Prop where
  owned : Owned m.hw fun n => (m.nic n).stage
  live : ∀ n thread, (m.nic n).stage ≠ some (thread, .off)
  taken : ∀ n, m.taken n = takenAt (m.nic n).stage
  released : ∀ n, m.released n = 0
  log : Disciplined m

theorem lockOk_init : LockOk (mlmeInit : MlmeSystem Nic Party) where
  owned n thread := by simp [mlmeInit, nicInit, MlmeNic.stage]
  live n thread := by simp [mlmeInit, nicInit, MlmeNic.stage]
  taken n := rfl
  released n := rfl
  log entry inside := by simp [mlmeInit] at inside

theorem disciplined_append {m m' : MlmeSystem Nic Party} (entry : LockEntry Nic)
    (log : Disciplined m) (ok : entry.Ok) (more : m'.log = m.log ++ [entry]) :
    Disciplined m' := by
  intro other inside
  rw [more, List.mem_append, List.mem_singleton] at inside
  rcases inside with old | new
  · exact log other old
  · rw [new]
    exact ok

variable [DecidableEq Nic] {m : MlmeSystem Nic Party} {prbTimes : Nat}

theorem stage_setNic (n : Nic) (s : MlmeNic Party) :
    (fun k => ((setNic m n s).nic k).stage) =
      Function.update (fun k => (m.nic k).stage) n s.stage :=
  Function.comp_update MlmeNic.stage m.nic n s

/-- What holds at every interface still does if it does at the one that has changed. -/
theorem forall_setNic {P : Nic → MlmeNic Party → Prop} {n : Nic} {s : MlmeNic Party}
    (before : ∀ k, P k (m.nic k)) (here : P n s) : ∀ k, P k ((setNic m n s).nic k) := by
  intro k
  unfold setNic
  dsimp only
  by_cases own : k = n
  · subst own
    rw [Function.update_self]
    exact here
  · rw [Function.update_of_ne own]
    exact before k

theorem LockOk.aside (ok : LockOk m) {n : Nic} {s : MlmeNic Party}
    (same : s.stage = (m.nic n).stage) : LockOk (setNic m n s) where
  owned := by
    rw [stage_setNic, same, Function.update_eq_self]
    exact ok.owned
  live := forall_setNic (P := fun _ s => ∀ thread, s.stage ≠ some (thread, .off)) ok.live
    (by rw [same]; exact ok.live n)
  taken := forall_setNic (P := fun k s => m.taken k = Mlme.takenAt s.stage) ok.taken
    (by rw [same]; exact ok.taken n)
  released := ok.released
  log := ok.log

theorem hwView_eq_none {hw : Option (Nic × SubThread)} {thread : Nic × SubThread} :
    hwView hw thread = none ↔ hw = none := by
  unfold hwView
  simp

/-- An interface without a running thread takes a step. -/
theorem LockOk.fresh (ok : LockOk m) {n : Nic} {s : MlmeNic Party} (fresh : Fresh s)
    (noThread : (m.nic n).stage = none) : LockOk (setNic m n s) where
  owned := by
    rw [stage_setNic]
    refine ok.owned.aside (fun thread => ?_) fun thread here => ?_
    · rw [noThread]
      exact nofun
    · cases fresh thread .holding here
  live := forall_setNic (P := fun _ s => ∀ thread, s.stage ≠ some (thread, .off)) ok.live
    (fun thread here => by cases fresh thread .off here)
  taken := forall_setNic (P := fun k s => m.taken k = Mlme.takenAt s.stage) ok.taken
    (by rw [ok.taken n, noThread, fresh.takenAt]; rfl)
  released := ok.released
  log := ok.log

theorem LockOk.take (ok : LockOk m) {n : Nic} {s : MlmeNic Party} {thread : SubThread}
    (free : m.hw = none) (before : (m.nic n).stage = some (thread, .waiting))
    (after : s.stage = some (thread, .holding)) :
    LockOk (applyLock (setNic m n s) (n, thread) (some .take)) where
  owned := by
    change Owned _ fun k => ((setNic m n s).nic k).stage
    rw [stage_setNic, after]
    exact ok.owned.moves before (.take free) (fun _ => rfl) nofun
  live := forall_setNic (P := fun _ s => ∀ thread, s.stage ≠ some (thread, .off)) ok.live
    (by simp [after])
  taken k := by
    change Function.update m.taken n (m.taken n + 1) k = _
    by_cases own : k = n
    · subst own
      simp [applyLock, setNic, ok.taken, before, after, Mlme.takenAt]
    · simp [applyLock, setNic, own, ok.taken]
  released := ok.released
  log := ok.log

/-- The thread gives the lock back and has finished. -/
theorem LockOk.finish (ok : LockOk m) {n : Nic} {s : MlmeNic Party} {thread : SubThread}
    (before : (m.nic n).stage = some (thread, .holding)) (fresh : Fresh s) :
    LockOk (applyFinish (applyLock (setNic m n s) (n, thread) (some .unlock)) (n, thread)) := by
  have holder : m.hw = some (n, thread) := (ok.owned n thread).mpr before
  have log : Disciplined (applyLock (setNic m n s) (n, thread) (some .unlock)) :=
    disciplined_append (.unlocked (n, thread) m.hw) ok.log holder rfl
  refine ⟨?_, ?_, fun k => ?_, fun k => ?_, ?_⟩
  · change Owned _ fun k => ((setNic m n s).nic k).stage
    rw [stage_setNic]
    refine ok.owned.moves before .unlock (fun running => absurd rfl running) ?_
    intro _ other here
    cases fresh other .holding here
  · refine forall_setNic (P := fun _ s => ∀ thread, s.stage ≠ some (thread, .off)) ok.live ?_
    intro other here
    cases fresh other .off here
  · change Function.update m.taken n 0 k = _
    by_cases own : k = n
    · subst own
      simp [applyFinish, applyLock, setNic, fresh.takenAt]
    · simp [applyFinish, applyLock, setNic, own, ok.taken]
  · change Function.update (Function.update m.released n _) n 0 k = 0
    by_cases own : k = n
    · subst own
      simp
    · simp [own, ok.released]
  · refine disciplined_append (.finished (n, thread) _ _ none) log ?_ rfl
    refine ⟨?_, ?_, nofun⟩
    · change m.taken n = 1
      rw [ok.taken, before]
      rfl
    · change Function.update m.released n (m.released n + 1) n = 1
      rw [Function.update_self, ok.released]

/-- One step of an interface. -/
theorem LockOk.core (ok : LockOk m) {n : Nic} (joined : Joined (m.nic n)) (a : CoreAnswers) :
    LockOk (coreEvent prbTimes m n a) := by
  unfold coreEvent
  dsimp only
  rw [subThread_eq]
  cases here : (m.nic n).stage with
  | none => exact ok.fresh (coreStep_fresh (by rw [subThread_eq, here]; rfl)) here
  | some entry =>
      obtain ⟨thread, before⟩ := entry
      have live : before ≠ .off := by
        rintro rfl
        exact ok.live n thread here
      have free : (fun thread => hwView m.hw (n, thread)) thread = none ↔ m.hw = none :=
        hwView_eq_none
      revert free
      generalize (fun thread => hwView m.hw (n, thread)) = lock
      intro free
      have step : LockStep (lock thread = none) thread before
          (coreStep prbTimes lock (m.nic n) a) := coreStep_lock joined here live
      generalize coreStep prbTimes lock (m.nic n) a = out at step ⊢
      obtain ⟨nic, act, finished⟩ := out
      obtain ⟨⟨after, moves, done, runs⟩, ends⟩ := step
      dsimp only [Option.map] at moves done runs ends ⊢
      cases moves with
      | stay stays running =>
          have goesOn : finished ≠ true := fun ended => running (done.mp ended)
          rw [if_neg goesOn]
          exact ok.aside ((runs running).trans here.symm)
      | take isFree =>
          have goesOn : finished ≠ true := fun ended => by cases done.mp ended
          rw [if_neg goesOn]
          exact ok.take (free.mp isFree) here (runs nofun)
      | unlock =>
          rw [if_pos (done.mpr rfl)]
          exact ok.finish here (ends (done.mpr rfl))

variable [DecidableEq Party]

theorem mlmeStep_lockOk {next : MlmeSystem Nic Party} (ok : LockOk m)
    (joined : ∀ n, Joined (m.nic n)) (event : MlmeEvent Nic Party)
    (hstep : mlmeStep prbTimes m event = some next) : LockOk next := by
  cases event with
  | core n a =>
      cases hstep
      exact ok.core (joined n) a
  | look n a =>
      cases hstep
      exact ok.aside look_stage
  | scan n event =>
      cases hstep
      exact ok.aside (scanAside_stage event)
  | recvAuth n frame =>
      cases hstep
      exact ok.aside (recvAuth_stage frame)
  | recvAssoc n frame =>
      cases hstep
      exact ok.aside (recvAssoc_stage frame)
  | connectCb n bssid =>
      cases hstep
      refine ok.aside ?_
      unfold connectCb
      split_ifs <;> rfl

end Run

theorem hw_lock_discipline {Nic : Type v} {Party : Type u} [DecidableEq Nic]
    [DecidableEq Party] (prbTimes : Nat) (events : List (MlmeEvent Nic Party)) :
    Throughout (mlmeStep prbTimes) Disciplined mlmeInit events := by
  refine throughout_of_kept (fun m => LockOk m ∧ ∀ n, Joined (m.nic n)) ?_ ?_ ?_ events
  · exact fun m kept => kept.1.log
  · intro m event ⟨ok, joined⟩
    obtain ⟨next, n, s', hstep, -⟩ := mlmeStep_nic (m := m) prbTimes event
    exact ⟨next, hstep, mlmeStep_lockOk ok joined event hstep,
      mlmeStep_joined prbTimes event joined hstep⟩
  · exact ⟨lockOk_init, fun _ => ⟨nofun, nofun, nofun⟩⟩

end Smartchip.Mlme
