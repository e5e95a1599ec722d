import Smartchip.Scan.Cleanup

/-!
# The life of a scan request

`wf_scan_filter` reads the request under its lock, and the thread puts it back under the
same lock.  The filter asks whether a scan is going on before it takes the lock.
-/

namespace Smartchip.Scan

open Smartchip.Foundation Smartchip.Frame Smartchip.Utility

universe u

section Request

variable {Party : Type u} {s s' : ScanSystem Party} {prbTimes : Nat}

/-- The pointer is set, and the message behind it has not been put back. -/
def RequestAlive (s : ScanSystem Party) : Prop :=
  s.preq = true ∧ .start ∉ s.que.free

def ReadsAlive (s : ScanSystem Party) : ScanEvent Party → Prop
  | .filterRead party => s.filters party = .inside → RequestAlive s
  | _ => True

/-- A filter that gets the lock finds the pointer still set. -/
def EntersAlive (s : ScanSystem Party) : ScanEvent Party → Prop
  | .filterTry party => s.filters party = .gate → s.reqLock = none → s.preq = true
  | _ => True

instance (s : ScanSystem Party) (event : ScanEvent Party) :
    Decidable (EntersAlive s event) :=
  match event with
  | .filterTry _ => inferInstanceAs (Decidable (_ → _ → _))
  | .thrd _ | .spawn _ | .start _ | .stop | .stopPush | .takeHw | .freeHw
  | .filterTest _ | .filterRead _ | .filterPost _ => isTrue trivial

def InsideAlive (s : ScanSystem Party) : Prop :=
  ∀ party, s.filters party = .inside → s.preq = true

/-- While the thread does not have the lock, the pointer leads to its message. -/
theorem HoldsAll.alive (holds : HoldsAll s) (preq : s.preq = true)
    (free : s.reqLock ≠ some .thread) : RequestAlive s := by
  unfold HoldsAll at holds
  have held : s.pc.holding.start = true := by
    have seen : s.pc.holding.preq = true := holds.preq ▸ preq
    have unlocked : ¬ s.pc.holding.lock = true := fun lock => free (holds.lock.mpr lock)
    cases here : s.pc <;> rw [here] at seen unlocked <;>
      first | rfl | exact absurd rfl unlocked | cases seen
  refine ⟨preq, fun inside => ?_⟩
  have some := total_pos_of_free inside
  rw [holds.start_absent held] at some
  exact absurd some (by decide)

/-- The thread leaves the filters alone, and takes the request away from none that is
inside. -/
theorem thrdStep_request (prbTimes : Nat) (s : ScanSystem Party) (a : Answers) :
    (thrdStep prbTimes s a).filters = s.filters ∧
      (s.pc ≠ .clearReq → s.preq = true → (thrdStep prbTimes s a).preq = true) := by
  have of_stays {s' : ScanSystem Party} {elsewhere : Prop} (stays : Stays s s') :
      s'.filters = s.filters ∧ (elsewhere → s.preq = true → s'.preq = true) :=
    ⟨stays.filters, fun _ preq => stays.preq.trans preq⟩
  unfold thrdStep
  cases here : s.pc with
  | waitHw =>
      cases s.hwLock with
      | none => exact ⟨rfl, fun _ preq => preq⟩
      | some owner => exact ⟨rfl, fun _ preq => preq⟩
  | popStart => exact of_stays popStart_stays
  | setReq => exact ⟨rfl, fun _ _ => rfl⟩
  | drain => exact of_stays drain_stays
  | chTest => exact of_stays chTest_stays
  | probe => exact of_stays probe_stays
  | activeWait | passiveWait | pauseWait =>
      exact of_stays (awaitAbort_stays ⟨rfl, rfl, rfl, rfl, nofun⟩)
  | pauseTest => exact of_stays pauseTest_stays
  | setting | pauseEnd | exit =>
      dsimp only [setting]
      split_ifs
      · exact ⟨rfl, fun _ preq => preq⟩
      · exact ⟨rfl, fun _ preq => preq⟩
  | waitReq =>
      cases s.reqLock with
      | none => exact ⟨rfl, fun _ preq => preq⟩
      | some owner => exact ⟨rfl, fun _ preq => preq⟩
  | clearReq => exact ⟨rfl, fun elsewhere => absurd rfl elsewhere⟩
  | cutTx | setRun | chNext | done | clearRun | resumeTx | delReq | postReq | unlockHw
  | exited => exact ⟨rfl, fun _ preq => preq⟩

/-- A filter that is inside keeps the thread from the request. -/
theorem InsideAlive.thrdStep (ok : InsideAlive s) (holds : HoldsAll s) (a : Answers) :
    InsideAlive (thrdStep prbTimes s a) := by
  obtain ⟨filters, preq⟩ := thrdStep_request prbTimes s a
  intro party inside
  rw [filters] at inside
  apply preq
  · intro here
    unfold HoldsAll at holds
    have mine : s.reqLock = some .thread := holds.lock.mpr (by rw [here]; rfl)
    cases mine.symm.trans (holds.filters party inside)
  · exact ok party inside

theorem InsideAlive.same (ok : InsideAlive s) (filters : s'.filters = s.filters)
    (preq : s'.preq = s.preq) : InsideAlive s' := by
  unfold InsideAlive
  rw [filters, preq]
  exact ok

theorem wfScanStart_filters (req : ScanReq) : (wfScanStart s req).filters = s.filters := by
  unfold wfScanStart
  split <;> rfl

theorem stopPush_filters : (stopPush s).filters = s.filters := by
  unfold stopPush
  split_ifs
  · rfl
  · dsimp only
    split <;> rfl

theorem HoldsAll.readsAlive (holds : HoldsAll s) (ok : InsideAlive s)
    (event : ScanEvent Party) : ReadsAlive s event := by
  cases event with
  | filterRead party =>
      intro inside
      apply holds.alive (ok party inside)
      rw [HoldsAt.filters holds party inside]
      simp
  | thrd _ | spawn _ | start _ | stop | stopPush | takeHw | freeHw | filterTest _
  | filterTry _ | filterPost _ => trivial

variable [DecidableEq Party]

theorem InsideAlive.setFilter (ok : InsideAlive s) {party : Party} {pc : FilterPc}
    (enters : pc = .inside → s.preq = true) : InsideAlive (setFilter s party pc) := by
  intro other inside
  by_cases same : other = party
  · subst same
    rw [setFilter_self] at inside
    exact enters inside
  · rw [setFilter_other _ same] at inside
    exact ok other inside

theorem InsideAlive.scanStep (ok : InsideAlive s) (holds : HoldsAll s)
    {event : ScanEvent Party} (enters : EntersAlive s event)
    (hstep : scanStep prbTimes s event = some s') : InsideAlive s' := by
  cases event with
  | thrd a =>
      cases hstep
      exact ok.thrdStep holds a
  | spawn junk =>
      cases hstep
      split_ifs
      · exact ok
      · exact ok
  | start req =>
      cases hstep
      exact ok.same (wfScanStart_filters req) (wfScanStart_aside req).preq
  | stopPush =>
      cases hstep
      exact ok.same stopPush_filters stopPush_aside.preq
  | stop | takeHw | freeHw =>
      cases hstep
      split_ifs
      · exact ok
      · exact ok
  | filterRead party =>
      cases hstep
      exact ok
  | filterTest party =>
      cases hstep
      unfold filterTest
      split_ifs
      · exact ok.setFilter nofun
      · exact ok
  | filterTry party =>
      cases hstep
      unfold filterTry
      split_ifs with gate
      · cases free : s.reqLock with
        | none => exact InsideAlive.setFilter ok fun _ => enters gate free
        | some owner => exact ok.setFilter nofun
      · exact ok
  | filterPost party =>
      cases hstep
      unfold filterPost
      split_ifs
      · exact InsideAlive.setFilter ok nofun
      · exact ok

end Request

theorem scan_request_alive {Party : Type u} [DecidableEq Party] (prbTimes : Nat)
    (events : List (ScanEvent Party))
    (enters : EachStep (scanStep prbTimes) EntersAlive scanInit events) :
    EachStep (scanStep prbTimes) ReadsAlive scanInit events := by
  refine EachStep.imp (fun s => HoldsAll s ∧ InsideAlive s) ?_ ?_ ⟨holdsAll_init, nofun⟩ enters
  · rintro s event s' ⟨holds, ok⟩ allowed hstep
    obtain ⟨other, hother, holds'⟩ := holds.scanStep event
    cases hother.symm.trans hstep
    exact ⟨holds', ok.scanStep holds allowed hstep⟩
  · rintro s event ⟨holds, ok⟩ -
    exact holds.readsAlive ok event

/-- A filter that takes the lock while the channel is scanned. -/
def promptFilter : List (ScanEvent Unit) :=
  [ScanEvent.start passiveReq, .spawn 0] ++ List.replicate 8 (ScanEvent.thrd granted) ++
    [ScanEvent.filterTest (), .filterTry (), .filterRead (), .filterPost ()] ++
    List.replicate 13 (ScanEvent.thrd granted)

theorem scan_request_alive_prompt :
    EachStep (scanStep 2) EntersAlive scanInit promptFilter ∧
      EachStep (scanStep 2) ReadsAlive scanInit promptFilter := by
  have enters : EachStep (scanStep 2) EntersAlive scanInit promptFilter := by
    decide +kernel
  exact ⟨enters, scan_request_alive 2 _ enters⟩

/-- A filter that sees the scan going on and comes for the lock when it is over. -/
def lateFilter : List (ScanEvent Unit) :=
  [ScanEvent.start passiveReq, .spawn 0] ++ List.replicate 8 (ScanEvent.thrd granted) ++
    [ScanEvent.filterTest ()] ++ List.replicate 13 (ScanEvent.thrd granted) ++
    [ScanEvent.filterTry ()]

theorem scan_request_read_late :
    ¬ EachStep (scanStep 2) ReadsAlive scanInit (lateFilter ++ [.filterRead ()]) := by
  intro alive
  have found : (run (scanStep 2) scanInit lateFilter).any (fun s =>
      decide (s.filters () = .inside ∧ s.preq = false)) = true := by decide +kernel
  obtain ⟨s, reached, facts⟩ := (Option.any_eq_true _ _).mp found
  obtain ⟨inside, preq⟩ := of_decide_eq_true facts
  have read : ReadsAlive s (.filterRead ()) := alive.last reached
  cases preq.symm.trans (read inside).1

end Smartchip.Scan
