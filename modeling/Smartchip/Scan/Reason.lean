import Smartchip.Scan.Cleanup

/-!
# The result code of a scan

The reason for which a scan ends is a local variable of `wf_scan_thrd` from the end of
the scan to the exit, and on the way the thread waits once more, for the lock of the
request.
-/

namespace Smartchip.Scan

open Smartchip.Foundation Smartchip.Frame Smartchip.Utility

universe u

/-- What the code should be. -/
def Cause.Reports (target scanned : List UInt8) (code : Int) : Cause → Prop
  | .failed failure => failure < 0 ∧ code = failure
  | .aborted => code = tagAbort
  | .done => code = tagDone ∧ scanned = target
  | .stray => False

section Stages

variable {Party : Type u}

def ReportsCause (s : ScanSystem Party) : Prop :=
  s.pc = .exited → ∀ cause, s.cause = some cause → cause.Reports s.target s.scanned s.prsn

/-- The thread does not wait for the lock with another reason than the one it would start
with, no abort is waiting while the transmission drains, and a P2P interface that sends
nothing finds a zero. -/
def SteadyReason (prbTimes : Nat) (s : ScanSystem Party) : ScanEvent Party → Prop
  | .thrd a =>
      (s.pc = .waitReq → s.reqLock = none ∨ s.reason = tagDone) ∧
      (s.pc = .drain → a.txEmpty = false → s.que.pend.head? ≠ some .abort) ∧
      (s.pc = .probe → s.retryCnt < prbTimes → a.p2p = some false → s.rst = 0)
  | _ => True

instance (prbTimes : Nat) (s : ScanSystem Party) (event : ScanEvent Party) :
    Decidable (SteadyReason prbTimes s event) :=
  match event with
  | .thrd _ => inferInstanceAs (Decidable (_ ∧ _ ∧ _))
  | .spawn _ | .start _ | .stop | .stopPush | .takeHw | .freeHw | .filterTest _
  | .filterTry _ | .filterRead _ | .filterPost _ => isTrue trivial

/-- Before the channels, at the test and in the body of the loop over them, on the way
out, and out. -/
inductive Stage where
  | before
  | test
  | body
  | ending
  | exited

def Pc.stage : Pc → Stage
  | .waitHw | .popStart | .setReq | .cutTx | .drain | .setting | .setRun => .before
  | .chTest => .test
  | .probe | .activeWait | .passiveWait | .pauseTest | .pauseWait | .pauseEnd
  | .chNext => .body
  | .done | .exit | .clearRun | .resumeTx | .waitReq | .delReq | .clearReq | .postReq
  | .unlockHw => .ending
  | .exited => .exited

def Scans (s : ScanSystem Party) : Prop :=
  s.req.chMap = s.target ∧ s.scanned = s.target.take s.chIdx

def ReasonAt (s : ScanSystem Party) : Stage → Prop
  | .before => True
  | .test => Scans s ∧ s.chIdx ≤ s.target.length
  | .body => Scans s ∧ s.chIdx < s.target.length
  | .ending => ∃ cause, s.cause = some cause ∧ cause.Reports s.target s.scanned s.reason
  | .exited => ∀ cause, s.cause = some cause → cause.Reports s.target s.scanned s.prsn

def ReasonOk (s : ScanSystem Party) : Prop := ReasonAt s s.pc.stage

variable {s s' : ScanSystem Party} {a : Answers} {prbTimes : Nat}

theorem reasonOk_fail {code : Int} (negative : code < 0) : ReasonOk (fail s code) :=
  ⟨.failed code, rfl, negative, rfl⟩

theorem ReasonAt.awaitAbort {timeout : ScanSystem Party → ScanSystem Party}
    (here : s.pc.stage = .body) (ok : ReasonAt s .body) (held : HoldsAt s s.pc.holding)
    (start : s.pc.holding.start = true) (next : ReasonOk (timeout s)) :
    ReasonOk (awaitAbort s a timeout) := by
  unfold Scan.awaitAbort
  split
  · exact ⟨.aborted, rfl, rfl⟩
  · rename_i que pops
    exact (held.pops_abort start pops).elim
  · split_ifs
    · exact next
    · unfold ReasonOk
      change ReasonAt (suspend s a) s.pc.stage
      rw [here]
      exact ok

theorem reasonOk_popStart (here : s.pc = .popStart) : ReasonOk (popStart s a) := by
  unfold popStart
  split
  · rintro cause same
    cases same
    exact ⟨by decide, rfl⟩
  · trivial
  · unfold ReasonOk suspend
    dsimp only
    rw [here]
    trivial

theorem reasonOk_drain (here : s.pc = .drain) (held : HoldsAt s s.pc.holding)
    (calm : a.txEmpty = false → s.que.pend.head? ≠ some .abort) : ReasonOk (drain s a) := by
  have waits (que : MsgQue ScanTag) : ReasonOk (suspend { s with que } a) := by
    unfold ReasonOk suspend
    dsimp only
    rw [here]
    trivial
  unfold drain
  by_cases empty : a.txEmpty = true
  · rw [if_pos empty]
    trivial
  · rw [if_neg empty]
    rw [Bool.not_eq_true] at empty
    split
    · rename_i que pops
      unfold wfMsgPop at pops
      rw [Option.map_eq_some_iff] at pops
      obtain ⟨tag, first, same⟩ := pops
      cases same
      exact absurd first (calm empty)
    · rename_i que pops
      exact (held.pops_abort (by rw [here]; rfl) pops).elim
    · split_ifs
      · exact reasonOk_fail (by decide)
      · exact waits s.que

theorem reasonOk_setting : ReasonOk (setting s a) := by
  unfold setting
  by_cases failed : (scanSetting s.req s.hw a).1 ≠ 0
  · rw [if_pos failed]
    exact reasonOk_fail (by decide)
  · rw [if_neg failed]
    trivial

theorem ReasonAt.chTest (ok : ReasonAt s .test) : ReasonOk (chTest s a) := by
  obtain ⟨⟨map, scanned⟩, bound⟩ := ok
  unfold Scan.chTest
  by_cases more : s.chIdx < s.req.chMap.length
  · rw [if_pos more]
    rw [map] at more
    by_cases failed : a.channel ≠ .ok
    · rw [if_pos failed]
      exact reasonOk_fail (by decide)
    · rw [if_neg failed]
      dsimp only
      cases s.req.type with
      | active => exact ⟨⟨map, scanned⟩, more⟩
      | passive => exact ⟨⟨map, scanned⟩, more⟩
  · rw [if_neg more]
    rw [map, Nat.not_lt] at more
    refine ⟨.done, rfl, rfl, ?_⟩
    change s.scanned = s.target
    rw [scanned, List.take_of_length_le more]

theorem ReasonAt.probe (ok : ReasonAt s .body)
    (steady : s.retryCnt < prbTimes → a.p2p = some false → s.rst = 0) :
    ReasonOk (probe prbTimes s a) := by
  unfold Scan.probe
  by_cases more : s.retryCnt < prbTimes
  · rw [if_pos more]
    split
    · rename_i silent
      rw [if_neg (not_not_intro (steady more silent))]
      exact ok
    · by_cases failed : a.send ≠ 0
      · rw [if_pos failed]
        exact reasonOk_fail (by decide)
      · rw [if_neg failed]
        exact ok
  · rw [if_neg more]
    exact ok

theorem ReasonAt.pauseTest (ok : ReasonAt s .body) : ReasonOk (pauseTest s a) := by
  unfold Scan.pauseTest
  by_cases pauses : a.buddy ∧ (s.chIdx + 1) % 5 = 0
  · rw [if_pos pauses]
    by_cases failed : a.channel = .fail
    · rw [if_pos failed]
      exact reasonOk_fail (by decide)
    · rw [if_neg failed]
      by_cases resumed : a.resumeBcn = true
      · simp only [resumed, if_true]
        exact ok
      · simp only [resumed]
        exact ok
  · rw [if_neg pauses]
    exact ok

theorem ReasonAt.chNext (ok : ReasonAt s .body) :
    ReasonAt { s with
      scanned := s.scanned ++ s.req.chMap[s.chIdx]?.toList
      chIdx := s.chIdx + 1 } .test := by
  obtain ⟨⟨map, scanned⟩, bound⟩ := ok
  refine ⟨⟨map, ?_⟩, bound⟩
  change s.scanned ++ s.req.chMap[s.chIdx]?.toList = s.target.take (s.chIdx + 1)
  rw [map, scanned, List.take_add_one]

theorem ReasonOk.thrdStep (ok : ReasonOk s) (holds : HoldsAll s)
    (steady : SteadyReason prbTimes s (.thrd a)) : ReasonOk (thrdStep prbTimes s a) := by
  unfold ReasonOk at ok
  unfold HoldsAll at holds
  obtain ⟨lock, calm, zero⟩ := steady
  unfold Scan.thrdStep
  cases here : s.pc with
  | waitHw =>
      cases s.hwLock with
      | none => trivial
      | some owner =>
          unfold ReasonOk suspend
          dsimp only
          rw [here]
          trivial
  | popStart => exact reasonOk_popStart here
  | setReq | cutTx => trivial
  | drain => exact reasonOk_drain here holds (calm here)
  | setting => exact reasonOk_setting
  | setRun => exact ⟨⟨rfl, rfl⟩, Nat.zero_le _⟩
  | chTest =>
      rw [here] at ok
      exact ReasonAt.chTest ok
  | probe =>
      rw [here] at ok
      exact ReasonAt.probe ok (zero here)
  | activeWait | passiveWait | pauseWait =>
      rw [here] at ok
      exact ReasonAt.awaitAbort (by rw [here]; rfl) ok holds (by rw [here]; rfl) ok
  | pauseTest =>
      rw [here] at ok
      exact ReasonAt.pauseTest ok
  | pauseEnd =>
      rw [here] at ok
      dsimp only
      by_cases failed : a.mlmeScan ≠ .ok
      · rw [if_pos failed]
        exact reasonOk_fail (by decide)
      · rw [if_neg failed]
        exact ok
  | chNext =>
      rw [here] at ok
      exact ReasonAt.chNext ok
  | exit =>
      rw [here] at ok
      dsimp only
      split_ifs
      · exact ok
      · exact ok
  | done | clearRun | resumeTx | delReq | clearReq | postReq =>
      rw [here] at ok
      exact ok
  | waitReq =>
      rw [here] at ok
      obtain ⟨cause, ended, reports⟩ := ok
      cases free : s.reqLock with
      | none => exact ⟨cause, ended, reports⟩
      | some owner =>
          -- the wait forgets the reason, which is what the next call starts with
          have same : s.reason = tagDone := (lock here).resolve_left (by simp [free])
          unfold ReasonOk
          change ReasonAt (suspend s a) s.pc.stage
          rw [here]
          refine ⟨cause, ended, ?_⟩
          rw [same] at reports
          exact reports
  | unlockHw =>
      rw [here] at ok
      obtain ⟨cause, ended, reports⟩ := ok
      intro other same
      cases ended.symm.trans same
      exact reports
  | exited => exact ok

theorem ReasonOk.aside (ok : ReasonOk s) (holds : HoldsAll s) (aside : Aside s s') :
    ReasonOk s' := by
  unfold ReasonOk at ok ⊢
  unfold HoldsAll at holds
  rw [aside.pc]
  have scans (running : s.pc.holding.start = true) (before : Scans s) : Scans s' := by
    unfold Scans
    rw [aside.req (holds.start_absent running), aside.target, aside.scanned, aside.chIdx]
    exact before
  have started (stage : s.pc.stage = .test ∨ s.pc.stage = .body) :
      s.pc.holding.start = true := by
    cases here : s.pc <;> rw [here] at stage <;> first | rfl | simp [Pc.stage] at stage
  cases stage : s.pc.stage with
  | before => trivial
  | test =>
      rw [stage] at ok
      refine ⟨scans (started (.inl stage)) ok.1, ?_⟩
      rw [aside.chIdx, aside.target]
      exact ok.2
  | body =>
      rw [stage] at ok
      refine ⟨scans (started (.inr stage)) ok.1, ?_⟩
      rw [aside.chIdx, aside.target]
      exact ok.2
  | ending =>
      rw [stage] at ok
      unfold ReasonAt at ok ⊢
      rw [aside.cause, aside.target, aside.scanned, aside.reason]
      exact ok
  | exited =>
      rw [stage] at ok
      unfold ReasonAt at ok ⊢
      rw [aside.cause, aside.target, aside.scanned, aside.prsn]
      exact ok

variable [DecidableEq Party]

theorem ReasonOk.scanStep (ok : ReasonOk s) (holds : HoldsAll s) {event : ScanEvent Party}
    (steady : SteadyReason prbTimes s event)
    (hstep : scanStep prbTimes s event = some s') : ReasonOk s' := by
  rcases scanStep_aside prbTimes s event with
    ⟨a, rfl⟩ | ⟨junk, rfl⟩ | ⟨other, hother, aside⟩
  · cases hstep
    exact ok.thrdStep holds steady
  · cases hstep
    split_ifs with idle
    · trivial
    · exact ok
  · cases hother.symm.trans hstep
    exact ok.aside holds aside

end Stages

theorem scan_reason_reported {Party : Type u} [DecidableEq Party] (prbTimes : Nat)
    (events : List (ScanEvent Party))
    (steady : EachStep (scanStep prbTimes) (SteadyReason prbTimes) scanInit events) :
    Throughout (scanStep prbTimes) ReportsCause scanInit events := by
  refine steady.throughout (fun s => HoldsAll s ∧ ReasonOk s) ?_ ?_ ⟨holdsAll_init, nofun⟩
  · rintro s ⟨-, ok⟩ exited
    unfold ReasonOk at ok
    rw [exited] at ok
    exact ok
  · rintro s event ⟨holds, ok⟩ allowed
    obtain ⟨s', hstep, holds'⟩ := holds.scanStep event
    exact ⟨s', hstep, holds', ok.scanStep holds allowed hstep⟩

/-- A passive scan that is aborted on its channel; `contended` is what a filter does
while the thread comes for the lock. -/
def abortedScan (contended : List (ScanEvent Unit)) : List (ScanEvent Unit) :=
  [ScanEvent.start passiveReq, .spawn 0] ++ List.replicate 8 (ScanEvent.thrd granted) ++
    [ScanEvent.stop, .stopPush] ++ contended ++
    List.replicate 6 (ScanEvent.thrd granted) ++ [ScanEvent.filterPost ()] ++
    List.replicate 5 (ScanEvent.thrd granted)

theorem scan_reason_reported_abort :
    EachStep (scanStep 2) (SteadyReason 2) scanInit (abortedScan []) ∧
      Throughout (scanStep 2) ReportsCause scanInit (abortedScan []) := by
  have steady : EachStep (scanStep 2) (SteadyReason 2) scanInit (abortedScan []) := by
    decide +kernel
  exact ⟨steady, scan_reason_reported 2 _ steady⟩

/-- A filter has the lock when the thread comes for it, and the abort is reported as a
complete scan. -/
theorem scan_reason_forgotten :
    ¬ Throughout (scanStep 2) ReportsCause scanInit
      (abortedScan [.filterTest (), .filterTry ()]) := by
  intro reported
  obtain ⟨s, reached, reports⟩ := reported.final
  have found : (run (scanStep 2) scanInit
      (abortedScan [.filterTest (), .filterTry ()])).all (fun s =>
        decide (s.pc = .exited ∧ s.cause = some .aborted ∧ s.prsn = tagDone)) = true := by
    decide +kernel
  rw [reached, Option.all_some, decide_eq_true_iff] at found
  obtain ⟨exited, cause, prsn⟩ := found
  have code : s.prsn = tagAbort := reports exited .aborted cause
  cases prsn.symm.trans code

end Smartchip.Scan
