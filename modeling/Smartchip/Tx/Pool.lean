import Mathlib.Data.Fintype.Card
import Mathlib.Data.List.FinRange
import Mathlib.Data.List.Perm.Basic
import Smartchip.Foundation.Run
import Smartchip.Utility.Queue

/-!
# The pool of transmit frames

The queues of `struct xmit_frame` in `nic/tx.c`, with the producers
`ndev_start_xmit` and `wf_tx_msdu`, the worker `tx_work_mpdu_xmit` of
`os/linux/tx_linux.c` and the functions that clear the pending queue.
-/

namespace Smartchip.Tx

open Smartchip.Foundation Smartchip.Utility

/-! ## Frames and queues -/

def nrXmitframe : Nat := 256

abbrev FrameId := Fin nrXmitframe

inductive FrameQue where
  | xmitFrameQueue
  | pendingFrameQueue
  deriving DecidableEq

/--
The part of `tx_info_st` and of the frames that moves frames about.  The count
beside `xmit_frame_queue` is `free_xmitframe_cnt`, the one beside
`pending_frame_queue` is `pending_frame_cnt`.  `pkt` tells the frames whose
packet is not `NULL`, `held` are the frames that callers of
`wf_xmit_cmdframe_new` have, and `netStopped` is the state of the queue of the
network stack.
-/
structure TxInfo where
  frames : Queues FrameQue FrameId
  xmitFrameCtl : Bool
  priority : FrameId → UInt8
  pkt : FrameId → Bool
  held : List FrameId
  netStopped : Bool

/-- A signed counter. -/
def freeXmitframeCnt (s : TxInfo) : Int :=
  (s.frames.cnt .xmitFrameQueue).toBitVec.toInt

def pendingFrameCnt (s : TxInfo) : Nat :=
  (s.frames.cnt .pendingFrameQueue).toNat

def setPktOf (s : TxInfo) (pxmitframe : FrameId) (pkt : Bool) : TxInfo :=
  { s with pkt := Function.update s.pkt pxmitframe pkt }

def wfXmitFrameNew (s : TxInfo) : Option FrameId × TxInfo :=
  match wfDequeHead s.frames .xmitFrameQueue with
  | (some (.node pxframe), frames) => (some pxframe, setPktOf { s with frames } pxframe false)
  | _ => (none, s)

/-- The frame is taken to be on the pending queue. -/
def wfXmitFrameDelete (s : TxInfo) (pxmitframe : FrameId) : TxInfo :=
  let frames := removed s.frames (.node pxmitframe) .pendingFrameQueue
  { s with frames := wfEnqueTail frames (.node pxmitframe) .xmitFrameQueue }

/-- The frame is taken to be on no queue. -/
def wfXmitFrameEnqueue (s : TxInfo) (pxmitframe : FrameId) : TxInfo :=
  { s with frames := wfEnqueTail s.frames (.node pxmitframe) .xmitFrameQueue }

def wfTxDataEnqueueTail (s : TxInfo) (pxmitframe : FrameId) : TxInfo :=
  { s with frames := wfEnqueTail s.frames (.node pxmitframe) .pendingFrameQueue }

def wfTxDataGetqueue (s : TxInfo) : Option FrameId :=
  if wfQueIsEmpty s.frames .pendingFrameQueue then none
  else
    match s.frames.links.next (.head .pendingFrameQueue) with
    | .node pxframe => some pxframe
    | .head _ => none

def wfTxDataDequeue (s : TxInfo) : Option FrameId × TxInfo :=
  match wfDequeHead s.frames .pendingFrameQueue with
  | (some (.node pxframe), frames) => (some pxframe, { s with frames })
  | _ => (none, s)

/-- `wf_xmit_cmdframe_new`; there is always a command buffer. -/
def wfXmitCmdframeNew (s : TxInfo) : TxInfo :=
  match wfXmitFrameNew s with
  | (none, s) => s
  | (some pcmdframe, s) => { s with held := pcmdframe :: s.held }

/-! ## Producers -/

/-- `init` is the outcome of `wf_xmit_frame_init`: the priority it sets, or
`none` when it fails. -/
def wfTxMsdu (s : TxInfo) (init : Option UInt8) (pkt : Bool) : TxInfo :=
  match wfXmitFrameNew s with
  | (none, s) => s
  | (some pxmitframe, s) =>
      match init with
      | none => wfXmitFrameEnqueue s pxmitframe
      | some priority =>
          let s := { s with priority := Function.update s.priority pxmitframe priority }
          wfTxDataEnqueueTail (setPktOf s pxmitframe pkt) pxmitframe

def wfNeedStopQueue (s : TxInfo) : Bool := decide (freeXmitframeCnt s ≤ 1)

/-- `ndev_start_xmit` behind `wf_tx_data_check`; the stack does not call it while
its queue is stopped. -/
def ndevStartXmit (s : TxInfo) (init : Option UInt8) : TxInfo :=
  if s.netStopped then s
  else if wfNeedStopQueue s then
    wfTxMsdu { s with xmitFrameCtl := true, netStopped := true } init true
  else wfTxMsdu s init true

/-! ## The worker -/

def wfNeedWakeQueue (s : TxInfo) : Bool :=
  s.xmitFrameCtl && decide (freeXmitframeCnt s > nrXmitframe - 1)

/-- The check behind a successful `wf_tx_msdu_to_mpdu`, which calls
`ndev_tx_resource_enable`. -/
def checkTxResource (s : TxInfo) : TxInfo :=
  if wfNeedWakeQueue s then { s with xmitFrameCtl := false, netStopped := false } else s

/-- What one turn of `tx_work_mpdu_xmit` finds: whether it may run, whether there
is a transmit buffer, whether a block-ack request is sent instead, and what
`wf_tx_msdu_to_mpdu` and `mpdu_insert_sending_queue` return. -/
structure TxTurn where
  cannotRun : Bool
  needStop : Bool
  xmitBuf : Bool
  addBa : Bool
  msduToMpdu : Bool
  inserted : Bool

inductive TurnOutcome where
  | wait
  | drop
  | retry
  | sent
  deriving DecidableEq

/-- The branches of a turn for the frame at the head of the queue. -/
def turnOutcome (s : TxInfo) (turn : TxTurn) (pxframe : FrameId) : TurnOutcome :=
  if 15 < s.priority pxframe then .drop
  else if turn.addBa then .wait
  else if s.pkt pxframe then
    if turn.msduToMpdu then
      if turn.inserted then .sent else .retry
    else .drop
  else .drop

def txWorkMpduXmit (s : TxInfo) (turn : TxTurn) : TxInfo :=
  if turn.cannotRun || turn.needStop then s
  else if wfQueIsEmpty s.frames .pendingFrameQueue then s
  else if turn.xmitBuf = false then s
  else
    match wfTxDataGetqueue s with
    | none => s
    | some pxframe =>
        match turnOutcome s turn pxframe with
        | .wait => s
        | .drop => setPktOf (wfXmitFrameDelete s pxframe) pxframe false
        | .retry => checkTxResource s
        | .sent => checkTxResource (wfXmitFrameDelete (setPktOf s pxframe false) pxframe)

/-! ## Clearing the pending queue -/

/-- There are no more frames than turns. -/
def frameQueueClearLoop : Nat → TxInfo → TxInfo
  | 0, s => s
  | fuel + 1, s =>
      match wfTxDataDequeue s with
      | (none, s) => s
      | (some pxframe, s) => frameQueueClearLoop fuel (setPktOf s pxframe false)

def wfTxFrameQueueClear (s : TxInfo) : TxInfo := frameQueueClearLoop nrXmitframe s

def pendingQueueClearLoop : Nat → TxInfo → TxInfo
  | 0, s => s
  | fuel + 1, s =>
      match wfTxDataGetqueue s with
      | none => s
      | some pxmitframe =>
          pendingQueueClearLoop fuel (setPktOf (wfXmitFrameDelete s pxmitframe) pxmitframe false)

/-- The worker is stopped around the loop. -/
def wfTxXmitPendingQueueClear (s : TxInfo) : TxInfo := pendingQueueClearLoop nrXmitframe s

/-! ## Runs -/

inductive TxOp where
  | msdu (init : Option UInt8) (pkt : Bool)
  | startXmit (init : Option UInt8)
  | mpduXmit (turn : TxTurn)
  | frameQueueClear
  | pendingQueueClear
  | cmdframeNew

def poolStep (s : TxInfo) : TxOp → TxInfo
  | .msdu init pkt => wfTxMsdu s init pkt
  | .startXmit init => ndevStartXmit s init
  | .mpduXmit turn => txWorkMpduXmit s turn
  | .frameQueueClear => wfTxFrameQueueClear s
  | .pendingQueueClear => wfTxXmitPendingQueueClear s
  | .cmdframeNew => wfXmitCmdframeNew s

def initFrames (pool : List FrameId) : Queues FrameQue FrameId :=
  pool.foldl (fun frames pxmitFrame => wfEnqueTail frames (.node pxmitFrame) .xmitFrameQueue)
    wfQueInit

def wfTxInfoInit : TxInfo where
  frames := initFrames (List.finRange nrXmitframe)
  xmitFrameCtl := false
  priority := fun _ => 0
  pkt := fun _ => false
  held := []
  netStopped := false

/-! ## What the operations do to the queues -/

def queues (free pending : List FrameId) : FrameQue → List FrameId
  | .xmitFrameQueue => free
  | .pendingFrameQueue => pending

@[simp] theorem update_queues_free (free pending other : List FrameId) :
    Function.update (queues free pending) .xmitFrameQueue other = queues other pending := by
  funext que
  cases que with
  | xmitFrameQueue => rfl
  | pendingFrameQueue => rfl

@[simp] theorem update_queues_pending (free pending other : List FrameId) :
    Function.update (queues free pending) .pendingFrameQueue other = queues free other := by
  funext que
  cases que with
  | xmitFrameQueue => rfl
  | pendingFrameQueue => rfl

def Kept (s : TxInfo) (free pending : List FrameId) : Prop :=
  Holds s.frames (queues free pending)

/-- The queues after an operation that leaves everything else alone. -/
structure Leaves (s next : TxInfo) (free pending : List FrameId) : Prop where
  kept : Kept next free pending
  ctl : next.xmitFrameCtl = s.xmitFrameCtl
  held : next.held = s.held
  net : next.netStopped = s.netStopped

section Operations

variable {s : TxInfo} {free pending : List FrameId} {f : FrameId}

theorem Kept.nodup (kept : Kept s free pending) : (free ++ pending).Nodup := by
  have apart := kept.threaded.apart .xmitFrameQueue .pendingFrameQueue (by decide)
  exact List.nodup_append'.mpr ⟨(kept.threaded.ring .xmitFrameQueue).nodup,
    (kept.threaded.ring .pendingFrameQueue).nodup, apart⟩

theorem Kept.length_le (kept : Kept s free pending) :
    free.length + pending.length ≤ nrXmitframe := by
  have bound := List.Nodup.length_le_card kept.nodup
  rwa [List.length_append, Fintype.card_fin] at bound

/-- A frame that is on neither queue. -/
theorem fresh_of_nodup (nodup : (f :: (free ++ pending)).Nodup) (que : FrameQue) :
    f ∉ queues free pending que := by
  have absent := (List.nodup_cons.mp nodup).1
  rw [List.mem_append, not_or] at absent
  cases que with
  | xmitFrameQueue => exact absent.1
  | pendingFrameQueue => exact absent.2

theorem Kept.freeCnt (kept : Kept s free pending) : freeXmitframeCnt s = free.length := by
  have bound := kept.length_le
  have count : s.frames.cnt .xmitFrameQueue = UInt32.ofNat free.length :=
    kept.cnt .xmitFrameQueue
  unfold nrXmitframe at bound
  unfold freeXmitframeCnt
  rw [count]
  simp only [UInt32.toBitVec_ofNat', BitVec.toInt_ofNat']
  rw [Int.bmod_eq_of_le (by omega) (by omega)]

theorem Kept.pendingCnt (kept : Kept s free pending) :
    pendingFrameCnt s = pending.length := by
  have bound := kept.length_le
  have count : s.frames.cnt .pendingFrameQueue = UInt32.ofNat pending.length :=
    kept.cnt .pendingFrameQueue
  unfold nrXmitframe at bound
  unfold pendingFrameCnt
  rw [count, UInt32.toNat_ofNat', Nat.mod_eq_of_lt (by omega)]

theorem Kept.unique {free' pending' : List FrameId} (kept : Kept s free pending)
    (other : Kept s free' pending') : free = free' ∧ pending = pending' :=
  ⟨(kept.threaded.ring .xmitFrameQueue).unique (other.threaded.ring .xmitFrameQueue),
    (kept.threaded.ring .pendingFrameQueue).unique (other.threaded.ring .pendingFrameQueue)⟩

theorem Kept.pendingEmpty (kept : Kept s free pending) :
    wfQueIsEmpty s.frames .pendingFrameQueue = decide (pending = []) := kept.isEmpty

theorem wfXmitFrameNew_nil (kept : Kept s [] pending) : wfXmitFrameNew s = (none, s) := by
  unfold wfXmitFrameNew
  rw [kept.dequeHead_nil rfl]

theorem wfXmitFrameNew_cons (kept : Kept s (f :: free) pending) :
    ∃ next, wfXmitFrameNew s = (some f, next) ∧ Leaves s next free pending := by
  obtain ⟨frames, taken, holds⟩ := kept.dequeHead_cons (h := .xmitFrameQueue) rfl
  rw [update_queues_free] at holds
  unfold wfXmitFrameNew
  rw [taken]
  exact ⟨_, rfl, holds, rfl, rfl, rfl⟩

theorem wfTxDataDequeue_nil (kept : Kept s free []) : wfTxDataDequeue s = (none, s) := by
  unfold wfTxDataDequeue
  rw [kept.dequeHead_nil rfl]

theorem wfTxDataDequeue_cons (kept : Kept s free (f :: pending)) :
    ∃ next, wfTxDataDequeue s = (some f, next) ∧ Leaves s next free pending := by
  obtain ⟨frames, taken, holds⟩ := kept.dequeHead_cons (h := .pendingFrameQueue) rfl
  rw [update_queues_pending] at holds
  unfold wfTxDataDequeue
  rw [taken]
  exact ⟨_, rfl, holds, rfl, rfl, rfl⟩

theorem wfTxDataGetqueue_nil (kept : Kept s free []) : wfTxDataGetqueue s = none := by
  unfold wfTxDataGetqueue
  rw [kept.pendingEmpty]
  rfl

theorem wfTxDataGetqueue_cons (kept : Kept s free (f :: pending)) :
    wfTxDataGetqueue s = some f := by
  unfold wfTxDataGetqueue
  rw [kept.pendingEmpty, (kept.threaded.ring .pendingFrameQueue).next_head]
  rfl

theorem wfXmitFrameDelete_leaves (kept : Kept s free (f :: pending)) :
    Leaves s (wfXmitFrameDelete s f) (free ++ [f]) pending := by
  have nodup := List.nodup_middle.mp kept.nodup
  have split : queues free (f :: pending) .pendingFrameQueue = [] ++ f :: pending := rfl
  have off := kept.removed split
  rw [update_queues_pending] at off
  have on := off.enqueTail (h := .xmitFrameQueue) (fresh_of_nodup nodup)
  rw [update_queues_free] at on
  exact ⟨on, rfl, rfl, rfl⟩

theorem wfXmitFrameEnqueue_leaves (kept : Kept s free pending)
    (nodup : (f :: (free ++ pending)).Nodup) :
    Leaves s (wfXmitFrameEnqueue s f) (free ++ [f]) pending := by
  have on := kept.enqueTail (h := .xmitFrameQueue) (fresh_of_nodup nodup)
  rw [update_queues_free] at on
  exact ⟨on, rfl, rfl, rfl⟩

theorem wfTxDataEnqueueTail_leaves (kept : Kept s free pending)
    (nodup : (f :: (free ++ pending)).Nodup) :
    Leaves s (wfTxDataEnqueueTail s f) free (pending ++ [f]) := by
  have on := kept.enqueTail (h := .pendingFrameQueue) (fresh_of_nodup nodup)
  rw [update_queues_pending] at on
  exact ⟨on, rfl, rfl, rfl⟩

theorem Leaves.trans {next final : TxInfo} {free' pending' : List FrameId}
    (first : Leaves s next free pending) (second : Leaves next final free' pending') :
    Leaves s final free' pending' :=
  ⟨second.kept, second.ctl.trans first.ctl, second.held.trans first.held,
    second.net.trans first.net⟩

theorem Leaves.setPktOf {next : TxInfo} (leaves : Leaves s next free pending) (pkt : Bool) :
    Leaves s (setPktOf next f pkt) free pending :=
  ⟨leaves.kept, leaves.ctl, leaves.held, leaves.net⟩

/-! ## Producers and the worker on the queues -/

theorem wfTxMsdu_nil (kept : Kept s [] pending) (init : Option UInt8) (pkt : Bool) :
    wfTxMsdu s init pkt = s := by
  unfold wfTxMsdu
  rw [wfXmitFrameNew_nil kept]

theorem wfTxMsdu_refused (kept : Kept s (f :: free) pending) (pkt : Bool) :
    Leaves s (wfTxMsdu s none pkt) (free ++ [f]) pending := by
  obtain ⟨next, taken, leaves⟩ := wfXmitFrameNew_cons kept
  unfold wfTxMsdu
  rw [taken]
  exact leaves.trans (wfXmitFrameEnqueue_leaves leaves.kept kept.nodup)

theorem wfTxMsdu_queued (kept : Kept s (f :: free) pending) (priority : UInt8)
    (pkt : Bool) : Leaves s (wfTxMsdu s (some priority) pkt) free (pending ++ [f]) := by
  obtain ⟨next, taken, leaves⟩ := wfXmitFrameNew_cons kept
  unfold wfTxMsdu
  rw [taken]
  have marked : Leaves s (setPktOf { next with
      priority := Function.update next.priority f priority } f pkt) free pending :=
    ⟨leaves.kept, leaves.ctl, leaves.held, leaves.net⟩
  exact marked.trans (wfTxDataEnqueueTail_leaves marked.kept kept.nodup)

theorem ndevStartXmit_running (running : s.netStopped = false) (kept : Kept s free pending)
    (init : Option UInt8) :
    ndevStartXmit s init = wfTxMsdu
      (if free.length ≤ 1 then { s with xmitFrameCtl := true, netStopped := true } else s)
      init true := by
  unfold ndevStartXmit wfNeedStopQueue
  have signed : (free.length : Int) ≤ 1 ↔ free.length ≤ 1 := by omega
  rw [running, kept.freeCnt]
  by_cases few : free.length ≤ 1
  · simp [signed, few]
  · simp [signed, few]

theorem wfXmitCmdframeNew_nil (kept : Kept s [] pending) : wfXmitCmdframeNew s = s := by
  unfold wfXmitCmdframeNew
  rw [wfXmitFrameNew_nil kept]

theorem wfXmitCmdframeNew_cons (kept : Kept s (f :: free) pending) :
    Kept (wfXmitCmdframeNew s) free pending ∧
      (wfXmitCmdframeNew s).xmitFrameCtl = s.xmitFrameCtl ∧
      (wfXmitCmdframeNew s).held = f :: s.held := by
  obtain ⟨next, taken, leaves⟩ := wfXmitFrameNew_cons kept
  unfold wfXmitCmdframeNew
  rw [taken]
  exact ⟨leaves.kept, leaves.ctl, congrArg (f :: ·) leaves.held⟩

theorem wfTxFrameQueueClear_leaves (kept : Kept s free pending) :
    Leaves s (wfTxFrameQueueClear s) free [] := by
  have enough : pending.length ≤ nrXmitframe :=
    (Nat.le_add_left _ _).trans kept.length_le
  unfold wfTxFrameQueueClear
  generalize nrXmitframe = fuel at enough
  induction fuel generalizing s pending with
  | zero =>
      cases List.eq_nil_of_length_eq_zero (Nat.le_zero.mp enough)
      exact ⟨kept, rfl, rfl, rfl⟩
  | succ fuel ih =>
      unfold frameQueueClearLoop
      cases pending with
      | nil =>
          rw [wfTxDataDequeue_nil kept]
          exact ⟨kept, rfl, rfl, rfl⟩
      | cons f pending =>
          obtain ⟨next, taken, leaves⟩ := wfTxDataDequeue_cons kept
          rw [taken]
          have marked := leaves.setPktOf (f := f) false
          exact marked.trans (ih marked.kept (Nat.le_of_succ_le_succ enough))

theorem wfTxXmitPendingQueueClear_leaves (kept : Kept s free pending) :
    Leaves s (wfTxXmitPendingQueueClear s) (free ++ pending) [] := by
  have enough : pending.length ≤ nrXmitframe :=
    (Nat.le_add_left _ _).trans kept.length_le
  unfold wfTxXmitPendingQueueClear
  generalize nrXmitframe = fuel at enough
  induction fuel generalizing s free pending with
  | zero =>
      cases List.eq_nil_of_length_eq_zero (Nat.le_zero.mp enough)
      rw [List.append_nil]
      exact ⟨kept, rfl, rfl, rfl⟩
  | succ fuel ih =>
      unfold pendingQueueClearLoop
      cases pending with
      | nil =>
          rw [wfTxDataGetqueue_nil kept, List.append_nil]
          exact ⟨kept, rfl, rfl, rfl⟩
      | cons f pending =>
          rw [wfTxDataGetqueue_cons kept]
          have marked := (wfXmitFrameDelete_leaves kept).setPktOf (f := f) false
          have rest := ih marked.kept (Nat.le_of_succ_le_succ enough)
          rw [List.append_assoc, List.singleton_append] at rest
          exact marked.trans rest

/-- The branch taken, when the turn comes as far as the frame. -/
def turnResult (s : TxInfo) (turn : TxTurn) (f : FrameId) : TurnOutcome :=
  if turn.cannotRun || turn.needStop || !turn.xmitBuf then .wait
  else turnOutcome s turn f

theorem txWorkMpduXmit_nil (kept : Kept s free []) (turn : TxTurn) :
    txWorkMpduXmit s turn = s := by
  unfold txWorkMpduXmit
  rw [kept.pendingEmpty, if_pos (decide_eq_true rfl), ite_self]

theorem txWorkMpduXmit_cons (kept : Kept s free (f :: pending)) (turn : TxTurn) :
    txWorkMpduXmit s turn =
      match turnResult s turn f with
      | .wait => s
      | .drop => setPktOf (wfXmitFrameDelete s f) f false
      | .retry => checkTxResource s
      | .sent => checkTxResource (wfXmitFrameDelete (setPktOf s f false) f) := by
  unfold txWorkMpduXmit turnResult
  rw [kept.pendingEmpty, wfTxDataGetqueue_cons kept]
  cases turn.cannotRun || turn.needStop with
  | true => rfl
  | false =>
      cases turn.xmitBuf with
      | false => rfl
      | true => rfl

end Operations

/-! ## Accounting -/

/-- The counters are the lengths of the queues, and every frame is on one of them
or held by its caller. -/
structure AccountedAs (s : TxInfo) (free pending : List FrameId) : Prop where
  kept : Kept s free pending
  freeCnt : freeXmitframeCnt s = free.length
  pendingCnt : pendingFrameCnt s = pending.length
  once : (free ++ pending ++ s.held).Perm (List.finRange nrXmitframe)
  total : free.length + pending.length + s.held.length = nrXmitframe

def Accounted (s : TxInfo) : Prop := ∃ free pending, AccountedAs s free pending

section Accounting

variable {s : TxInfo} {free pending : List FrameId}

theorem accounted_of_perm (kept : Kept s free pending)
    (once : (free ++ pending ++ s.held).Perm (List.finRange nrXmitframe)) :
    Accounted s := by
  have total := once.length_eq
  rw [List.length_append, List.length_append, List.length_finRange] at total
  exact ⟨free, pending, kept, kept.freeCnt, kept.pendingCnt, once, total⟩

/-- An operation that only moves frames between the queues. -/
theorem Leaves.accounted {next : TxInfo} {free' pending' : List FrameId}
    (leaves : Leaves s next free' pending') (was : AccountedAs s free pending)
    (moved : (free' ++ pending').Perm (free ++ pending)) : Accounted next := by
  apply accounted_of_perm leaves.kept
  rw [leaves.held]
  exact (moved.append_right s.held).trans was.once

theorem checkTxResource_accounted (accounted : Accounted s) :
    Accounted (checkTxResource s) := by
  unfold checkTxResource
  split
  · obtain ⟨free, pending, was⟩ := accounted
    exact accounted_of_perm was.kept was.once
  · exact accounted

theorem wfTxMsdu_accounted (accounted : Accounted s) (init : Option UInt8) (pkt : Bool) :
    Accounted (wfTxMsdu s init pkt) := by
  obtain ⟨free, pending, was⟩ := accounted
  cases free with
  | nil =>
      rw [wfTxMsdu_nil was.kept]
      exact ⟨[], pending, was⟩
  | cons f free =>
      cases init with
      | none =>
          apply (wfTxMsdu_refused was.kept pkt).accounted was
          rw [List.append_assoc]
          exact List.perm_middle
      | some priority =>
          apply (wfTxMsdu_queued was.kept priority pkt).accounted was
          rw [← List.append_assoc]
          exact List.perm_append_singleton f (free ++ pending)

theorem ndevStartXmit_accounted (accounted : Accounted s) (init : Option UInt8) :
    Accounted (ndevStartXmit s init) := by
  unfold ndevStartXmit
  split
  · exact accounted
  · split
    · apply wfTxMsdu_accounted
      obtain ⟨free, pending, was⟩ := accounted
      exact accounted_of_perm was.kept was.once
    · exact wfTxMsdu_accounted accounted init true

theorem txWorkMpduXmit_accounted (accounted : Accounted s) (turn : TxTurn) :
    Accounted (txWorkMpduXmit s turn) := by
  obtain ⟨free, pending, was⟩ := accounted
  cases pending with
  | nil =>
      rw [txWorkMpduXmit_nil was.kept]
      exact ⟨free, [], was⟩
  | cons f pending =>
      have moved : (free ++ [f] ++ pending).Perm (free ++ f :: pending) := by simp
      rw [txWorkMpduXmit_cons was.kept]
      cases turnResult s turn f with
      | wait => exact ⟨free, f :: pending, was⟩
      | drop => exact ((wfXmitFrameDelete_leaves was.kept).setPktOf false).accounted was moved
      | retry => exact checkTxResource_accounted ⟨free, f :: pending, was⟩
      | sent =>
          apply checkTxResource_accounted
          have marked : Leaves s (setPktOf s f false) free (f :: pending) :=
            ⟨was.kept, rfl, rfl, rfl⟩
          exact (marked.trans (wfXmitFrameDelete_leaves marked.kept)).accounted was moved

theorem wfXmitCmdframeNew_accounted (accounted : Accounted s) :
    Accounted (wfXmitCmdframeNew s) := by
  obtain ⟨free, pending, was⟩ := accounted
  cases free with
  | nil =>
      rw [wfXmitCmdframeNew_nil was.kept]
      exact ⟨[], pending, was⟩
  | cons f free =>
      obtain ⟨kept, -, held⟩ := wfXmitCmdframeNew_cons was.kept
      apply accounted_of_perm kept
      rw [held]
      exact List.perm_middle.trans was.once

/-- The frames that the clear takes off the pending queue go nowhere. -/
theorem wfTxFrameQueueClear_accounted_iff (was : AccountedAs s free pending) :
    Accounted (wfTxFrameQueueClear s) ↔ pending = [] := by
  have leaves := wfTxFrameQueueClear_leaves was.kept
  constructor
  · rintro ⟨free', pending', now⟩
    have same := leaves.kept.unique now.kept
    have total := now.total
    rw [← same.1, ← same.2, leaves.held] at total
    have before := was.total
    apply List.eq_nil_of_length_eq_zero
    rw [List.length_nil] at total
    omega
  · intro empty
    subst empty
    exact leaves.accounted was (List.Perm.refl _)

/-- The run never clears frames with `wf_tx_frame_queue_clear`. -/
def NothingCleared (s : TxInfo) (op : TxOp) : Prop :=
  op = .frameQueueClear → wfQueIsEmpty s.frames .pendingFrameQueue = true

theorem poolStep_accounted_iff (accounted : Accounted s) (op : TxOp) :
    NothingCleared s op ↔ Accounted (poolStep s op) := by
  obtain ⟨free, pending, was⟩ := accounted
  have accounted : Accounted s := ⟨free, pending, was⟩
  unfold NothingCleared
  cases op with
  | msdu init pkt => simpa [poolStep] using wfTxMsdu_accounted accounted init pkt
  | startXmit init => simpa [poolStep] using ndevStartXmit_accounted accounted init
  | mpduXmit turn => simpa [poolStep] using txWorkMpduXmit_accounted accounted turn
  | frameQueueClear =>
      have cleared := wfTxFrameQueueClear_accounted_iff was
      simpa [poolStep, was.kept.pendingEmpty] using cleared.symm
  | pendingQueueClear =>
      have leaves := wfTxXmitPendingQueueClear_leaves was.kept
      have back := leaves.accounted was (by rw [List.append_nil])
      simpa [poolStep] using back
  | cmdframeNew => simpa [poolStep] using wfXmitCmdframeNew_accounted accounted

end Accounting

theorem initFrames_holds (pool more : List FrameId) (nodup : (pool ++ more).Nodup)
    {frames : Queues FrameQue FrameId} (holds : Holds frames (queues pool [])) :
    Holds (more.foldl (fun frames pxmitFrame =>
      wfEnqueTail frames (.node pxmitFrame) .xmitFrameQueue) frames)
      (queues (pool ++ more) []) := by
  induction more generalizing pool frames with
  | nil => simpa using holds
  | cons f more ih =>
      have fresh : (f :: (pool ++ [])).Nodup := by
        rw [List.append_nil]
        exact (List.nodup_middle.mp nodup).sublist
          ((List.sublist_append_left pool more).cons_cons f)
      have on := holds.enqueTail (h := .xmitFrameQueue) (fresh_of_nodup fresh)
      rw [update_queues_free] at on
      have split : pool ++ f :: more = (pool ++ [f]) ++ more := by simp
      rw [split] at nodup ⊢
      exact ih (pool ++ [f]) nodup on

theorem wfQueInit_queues : Holds wfQueInit (queues [] []) := by
  have none : queues [] [] = fun _ => [] := by
    funext que
    cases que with
    | xmitFrameQueue => rfl
    | pendingFrameQueue => rfl
  rw [none]
  exact holds_wfQueInit

theorem initFrames_queues {pool : List FrameId} (nodup : pool.Nodup) :
    Holds (initFrames pool) (queues pool []) :=
  initFrames_holds [] pool nodup wfQueInit_queues

theorem wfTxInfoInit_frames :
    wfTxInfoInit.frames = initFrames (List.finRange nrXmitframe) := by
  simp only [wfTxInfoInit]

theorem wfTxInfoInit_kept : Kept wfTxInfoInit (List.finRange nrXmitframe) [] := by
  unfold Kept
  rw [wfTxInfoInit_frames]
  exact initFrames_queues (List.nodup_finRange nrXmitframe)

theorem wfTxInfoInit_accounted : Accounted wfTxInfoInit := by
  apply accounted_of_perm wfTxInfoInit_kept
  simp [wfTxInfoInit]

/-- Over any run from the initialised driver, the frames are accounted for
exactly as long as `wf_tx_frame_queue_clear` finds nothing to clear. -/
theorem frames_accounted_iff (ops : List TxOp) :
    Throughout (fun s op => some (poolStep s op)) Accounted wfTxInfoInit ops ↔
      EachStep (fun s op => some (poolStep s op)) NothingCleared wfTxInfoInit ops := by
  apply throughout_iff_eachStep (fun _ => True)
  · intro s next op _ _
    trivial
  · intro s op _ accounted
    simpa using poolStep_accounted_iff accounted op
  · trivial
  · exact wfTxInfoInit_accounted

theorem clear_after_start {s : TxInfo} {f : FrameId} {free : List FrameId}
    (running : s.netStopped = false) (kept : Kept s (f :: free) [])
    (queued : Accounted (poolStep s (.startXmit (some 0)))) :
    ¬ Accounted (poolStep (poolStep s (.startXmit (some 0))) .frameQueueClear) := by
  obtain ⟨free', pending', was⟩ := queued
  intro accounted
  have empty : pending' = [] := (wfTxFrameQueueClear_accounted_iff was).mp accounted
  have started := was.kept
  rw [poolStep, ndevStartXmit_running running kept] at started
  split at started
  · have same := (wfTxMsdu_queued (s := { s with xmitFrameCtl := true, netStopped := true })
      kept 0 true).kept.unique started
    cases same.2.trans empty
  · have same := (wfTxMsdu_queued kept 0 true).kept.unique started
    cases same.2.trans empty

/-- A packet is queued and the queue cleared: its frame is gone. -/
theorem cleared_frame_lost :
    ¬ Throughout (fun s op => some (poolStep s op)) Accounted wfTxInfoInit
      [.startXmit (some 0), .frameQueueClear] := by
  have nonempty : List.finRange nrXmitframe ≠ [] :=
    List.ne_nil_of_length_pos (by rw [List.length_finRange]; decide)
  obtain ⟨f, free, split⟩ := List.exists_cons_of_ne_nil nonempty
  have kept := wfTxInfoInit_kept
  rw [split] at kept
  have running : wfTxInfoInit.netStopped = false := by simp only [wfTxInfoInit]
  have queued := ndevStartXmit_accounted wfTxInfoInit_accounted (some 0)
  have lost := clear_after_start running kept queued
  simp only [Throughout, Option.some.injEq, exists_eq_left']
  intro throughout
  exact lost throughout.2.2

end Smartchip.Tx
