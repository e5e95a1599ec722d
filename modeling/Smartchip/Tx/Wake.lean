import Smartchip.Tx.Pool

/-!
# Waking the network stack

`wf_need_stop_queue` stops the queue of the network stack when the frames run
out, and only the check behind a successful `wf_tx_msdu_to_mpdu` wakes it.
-/

namespace Smartchip.Tx

open Smartchip.Foundation Smartchip.Utility

/-- The queue is stopped and nothing is under way that could wake it. -/
def Stuck (s : TxInfo) : Prop :=
  s.xmitFrameCtl = true ∧ wfQueIsEmpty s.frames .pendingFrameQueue = true

/--
The step does not take the last chance to wake the queue away: a worker that
returns the last pending frame checks the resources and finds all frames free,
the pending queue is not cleared while the stack is stopped, and the stack is not
stopped by a packet that is then refused with nothing pending.
-/
def WakeKept (s : TxInfo) : TxOp → Prop
  | .msdu _ _ => True
  | .startXmit init =>
      s.netStopped = false → freeXmitframeCnt s ≤ 1 → pendingFrameCnt s = 0 →
        freeXmitframeCnt s = 1 ∧ init ≠ none
  | .mpduXmit turn =>
      s.xmitFrameCtl = true → pendingFrameCnt s = 1 → ∀ f ∈ wfTxDataGetqueue s,
        match turnResult s turn f with
        | .drop => False
        | .sent => freeXmitframeCnt s = nrXmitframe - 1
        | _ => True
  | .frameQueueClear => s.xmitFrameCtl = false
  | .pendingQueueClear => s.xmitFrameCtl = false
  | .cmdframeNew => True

section Step

variable {s : TxInfo} {free pending : List FrameId} {f : FrameId}

theorem Kept.stuck_iff (kept : Kept s free pending) :
    Stuck s ↔ s.xmitFrameCtl = true ∧ pending = [] := by
  unfold Stuck
  rw [kept.pendingEmpty, decide_eq_true_iff]

theorem Leaves.stuck_iff {next : TxInfo} (leaves : Leaves s next free pending) :
    Stuck next ↔ s.xmitFrameCtl = true ∧ pending = [] := by
  rw [leaves.kept.stuck_iff, leaves.ctl]

theorem wfTxMsdu_kept (kept : Kept s free pending) (init : Option UInt8) (pkt : Bool) :
    ∃ free' pending', Kept (wfTxMsdu s init pkt) free' pending' := by
  cases free with
  | nil => exact ⟨[], pending, by rw [wfTxMsdu_nil kept]; exact kept⟩
  | cons f free =>
      cases init with
      | none => exact ⟨_, _, (wfTxMsdu_refused kept pkt).kept⟩
      | some priority => exact ⟨_, _, (wfTxMsdu_queued kept priority pkt).kept⟩

theorem checkTxResource_kept (kept : Kept s free pending) :
    Kept (checkTxResource s) free pending := by
  unfold checkTxResource
  split
  · exact kept
  · exact kept

theorem poolStep_kept (kept : Kept s free pending) (op : TxOp) :
    ∃ free' pending', Kept (poolStep s op) free' pending' := by
  cases op with
  | msdu init pkt => exact wfTxMsdu_kept kept init pkt
  | startXmit init =>
      rw [poolStep]
      cases running : s.netStopped with
      | true =>
          unfold ndevStartXmit
          rw [running]
          exact ⟨free, pending, kept⟩
      | false =>
          rw [ndevStartXmit_running running kept]
          apply wfTxMsdu_kept
          split
          · exact kept
          · exact kept
  | mpduXmit turn =>
      rw [poolStep]
      cases pending with
      | nil =>
          rw [txWorkMpduXmit_nil kept]
          exact ⟨free, [], kept⟩
      | cons f pending =>
          rw [txWorkMpduXmit_cons kept]
          cases turnResult s turn f with
          | wait => exact ⟨_, _, kept⟩
          | drop => exact ⟨_, _, (wfXmitFrameDelete_leaves kept).kept⟩
          | retry => exact ⟨_, _, checkTxResource_kept kept⟩
          | sent =>
              have back := wfXmitFrameDelete_leaves (s := setPktOf s f false) kept
              exact ⟨_, _, checkTxResource_kept back.kept⟩
  | frameQueueClear => exact ⟨_, _, (wfTxFrameQueueClear_leaves kept).kept⟩
  | pendingQueueClear => exact ⟨_, _, (wfTxXmitPendingQueueClear_leaves kept).kept⟩
  | cmdframeNew =>
      rw [poolStep]
      cases free with
      | nil =>
          rw [wfXmitCmdframeNew_nil kept]
          exact ⟨[], pending, kept⟩
      | cons f free => exact ⟨_, _, (wfXmitCmdframeNew_cons kept).1⟩

theorem wfTxMsdu_stuck_iff (kept : Kept s free pending) (init : Option UInt8) (pkt : Bool) :
    Stuck (wfTxMsdu s init pkt) ↔
      (s.xmitFrameCtl = true ∧ pending = []) ∧ (free = [] ∨ init = none) := by
  cases free with
  | nil =>
      rw [wfTxMsdu_nil kept, kept.stuck_iff]
      simp
  | cons f free =>
      cases init with
      | none =>
          rw [(wfTxMsdu_refused kept pkt).stuck_iff]
          simp
      | some priority =>
          rw [(wfTxMsdu_queued kept priority pkt).stuck_iff]
          simp

theorem startXmit_wake_iff (kept : Kept s free pending) (awake : ¬ Stuck s)
    (init : Option UInt8) :
    WakeKept s (.startXmit init) ↔ ¬ Stuck (ndevStartXmit s init) := by
  rw [kept.stuck_iff] at awake
  unfold WakeKept
  rw [kept.freeCnt, kept.pendingCnt]
  cases running : s.netStopped with
  | true =>
      unfold ndevStartXmit
      rw [running]
      simp [kept.stuck_iff, awake]
  | false =>
      rw [ndevStartXmit_running running kept]
      by_cases few : free.length ≤ 1
      · have stopped : Kept { s with xmitFrameCtl := true, netStopped := true } free pending :=
          kept
        rw [if_pos few, wfTxMsdu_stuck_iff stopped]
        have signed : ((free.length : Int) ≤ 1) := by omega
        have one : (free.length : Int) = 1 ↔ free ≠ [] := by
          rw [← List.length_pos_iff]
          omega
        simp only [signed, one, List.length_eq_zero_iff, true_and, not_and, not_or]
        tauto
      · rw [if_neg few, wfTxMsdu_stuck_iff kept]
        have signed : ¬ ((free.length : Int) ≤ 1) := by omega
        simp only [signed, false_implies, implies_true, true_iff, not_and]
        intro stuck
        exact absurd stuck awake

theorem checkTxResource_stuck_iff (kept : Kept s free pending) :
    Stuck (checkTxResource s) ↔
      (s.xmitFrameCtl = true ∧ pending = []) ∧ free.length < nrXmitframe := by
  have enough : freeXmitframeCnt s > nrXmitframe - 1 ↔ ¬ free.length < nrXmitframe := by
    rw [kept.freeCnt]
    omega
  rw [(checkTxResource_kept kept).stuck_iff]
  unfold checkTxResource wfNeedWakeQueue
  cases ctl : s.xmitFrameCtl with
  | false => simp [ctl]
  | true =>
      by_cases all : free.length < nrXmitframe
      · simp [enough, all, ctl]
      · simp [enough, all]

theorem mpduXmit_wake_iff (kept : Kept s free pending) (awake : ¬ Stuck s) (turn : TxTurn) :
    WakeKept s (.mpduXmit turn) ↔ ¬ Stuck (txWorkMpduXmit s turn) := by
  unfold WakeKept
  rw [kept.freeCnt, kept.pendingCnt]
  cases pending with
  | nil =>
      rw [txWorkMpduXmit_nil kept]
      simp [awake]
  | cons f pending =>
      have last : (f :: pending).length = 1 ↔ pending = [] := by simp
      rw [txWorkMpduXmit_cons kept, wfTxDataGetqueue_cons kept, last]
      simp only [Option.mem_some_iff, forall_eq']
      cases turnResult s turn f with
      | wait => simp [awake]
      | drop =>
          rw [((wfXmitFrameDelete_leaves kept).setPktOf false).stuck_iff]
          simp
      | retry => simp [checkTxResource_stuck_iff kept]
      | sent =>
          have back := wfXmitFrameDelete_leaves (s := setPktOf s f false) kept
          have bound := kept.length_le
          have all : (free.length : Int) = nrXmitframe - 1 ↔
              ¬ (free ++ [f]).length < nrXmitframe := by
            rw [List.length_cons] at bound
            rw [List.length_append, List.length_singleton]
            omega
          simp only [checkTxResource_stuck_iff back.kept, back.ctl, all, not_and]
          simp [setPktOf]

theorem poolStep_wake_iff (kept : Kept s free pending) (awake : ¬ Stuck s) (op : TxOp) :
    WakeKept s op ↔ ¬ Stuck (poolStep s op) := by
  have idle := awake
  rw [kept.stuck_iff] at idle
  cases op with
  | msdu init pkt =>
      rw [poolStep, wfTxMsdu_stuck_iff kept]
      simp [WakeKept, idle]
  | startXmit init => exact startXmit_wake_iff kept awake init
  | mpduXmit turn => exact mpduXmit_wake_iff kept awake turn
  | frameQueueClear =>
      rw [poolStep, (wfTxFrameQueueClear_leaves kept).stuck_iff]
      simp [WakeKept]
  | pendingQueueClear =>
      rw [poolStep, (wfTxXmitPendingQueueClear_leaves kept).stuck_iff]
      simp [WakeKept]
  | cmdframeNew =>
      rw [poolStep]
      cases free with
      | nil =>
          rw [wfXmitCmdframeNew_nil kept]
          simp [WakeKept, awake]
      | cons f free =>
          obtain ⟨taken, ctl, -⟩ := wfXmitCmdframeNew_cons kept
          rw [taken.stuck_iff, ctl]
          simp [WakeKept, idle]

end Step

/-- Over any run from the initialised driver, the queue of the stack is never left
stopped with nothing pending exactly when every step keeps the chance to wake
it. -/
theorem wake_not_lost_iff (ops : List TxOp) :
    Throughout (fun s op => some (poolStep s op)) (fun s => ¬ Stuck s) wfTxInfoInit ops ↔
      EachStep (fun s op => some (poolStep s op)) WakeKept wfTxInfoInit ops := by
  apply throughout_iff_eachStep (fun s => ∃ free pending, Kept s free pending)
  · intro s next op kept hstep
    obtain ⟨free, pending, kept⟩ := kept
    rw [Option.some.injEq] at hstep
    rw [← hstep]
    exact poolStep_kept kept op
  · intro s op kept awake
    obtain ⟨free, pending, kept⟩ := kept
    simpa using poolStep_wake_iff kept awake op
  · exact ⟨_, _, wfTxInfoInit_kept⟩
  · have running : wfTxInfoInit.xmitFrameCtl = false := by simp only [wfTxInfoInit]
    simp [Stuck, running]

/-! A stack that sends until it is stopped, and a disconnect. -/

theorem run_fill {s : TxInfo} {free pending : List FrameId} (running : s.netStopped = false)
    (kept : Kept s free pending) (some_free : free ≠ []) :
    ∃ full, run (fun s op => some (poolStep s op)) s
        (List.replicate free.length (.startXmit (some 0))) = some full ∧
      full.xmitFrameCtl = true ∧ Kept full [] (pending ++ free) := by
  induction free generalizing s pending with
  | nil => exact absurd rfl some_free
  | cons f free ih =>
      rw [List.length_cons, List.replicate_succ, run_cons, Option.bind_some, poolStep,
        ndevStartXmit_running running kept]
      cases free with
      | nil =>
          have stopped := wfTxMsdu_queued
            (s := { s with xmitFrameCtl := true, netStopped := true }) kept 0 true
          exact ⟨_, rfl, stopped.ctl, stopped.kept⟩
      | cons g free =>
          rw [if_neg (by simp)]
          have queued := wfTxMsdu_queued kept 0 true
          obtain ⟨full, filled, ctl, all⟩ := ih (queued.net.trans running) queued.kept
            (by simp)
          rw [List.append_assoc, List.singleton_append] at all
          exact ⟨full, filled, ctl, all⟩

/-- The stack sends until it is stopped, then the station is disconnected. -/
theorem disconnect_loses_wake :
    ¬ Throughout (fun s op => some (poolStep s op)) (fun s => ¬ Stuck s) wfTxInfoInit
      (List.replicate nrXmitframe (.startXmit (some 0)) ++ [.pendingQueueClear]) := by
  intro throughout
  obtain ⟨final, reached, awake⟩ := throughout.final
  have running : wfTxInfoInit.netStopped = false := by simp only [wfTxInfoInit]
  have some_free : List.finRange nrXmitframe ≠ [] :=
    List.ne_nil_of_length_pos (by rw [List.length_finRange]; decide)
  obtain ⟨full, filled, ctl, kept⟩ := run_fill running wfTxInfoInit_kept some_free
  rw [List.length_finRange] at filled
  rw [run_append, filled] at reached
  simp only [Option.bind_some, run_cons, run_nil, Option.some.injEq] at reached
  apply awake
  rw [← reached, poolStep, (wfTxXmitPendingQueueClear_leaves kept).stuck_iff]
  exact ⟨ctl, rfl⟩

end Smartchip.Tx
