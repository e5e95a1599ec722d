import Mathlib.Data.List.FinRange
import Mathlib.Data.List.Perm.Basic
import Smartchip.Foundation.Run
import Smartchip.Utility.Queue

/-!
# Transmit buffers

The two pools of `struct xmit_buf` in `nic/tx.c`.  The worker `tx_work_mpdu_xmit`
and the functions that send management frames take a buffer and hand it to the
queue of the bus (`os/linux/hif/hif_queue.c`), whose callback gives it back.
-/

namespace Smartchip.Tx

open Smartchip.Foundation Smartchip.Utility

/-! ## Buffers and queue nodes -/

inductive BufQue where
  | xmitBufQueue
  | xmitExtbufQueue
  deriving DecidableEq

/-- `XMIT_DATA_BUFFER_CNT` and `XMIT_MGMT_BUFFER_CNT`. -/
def xmitBufferCnt : Nat := 8

structure XmitBuf where
  pool : BufQue
  bufferId : Fin xmitBufferCnt
  deriving DecidableEq

/-- `WF_TX_MAX_DATA_QUEUE_NODE_NUM`. -/
def txQueueNodeNum : Nat := 32

inductive TxCallback where
  | mpduSendCompleteCb
  | wfXmitExtbufDelete
  deriving DecidableEq

structure HifNode where
  param : XmitBuf
  txCallbackFunc : Option TxCallback
  deriving DecidableEq

/--
The counts beside the two queues are `free_xmitbuf_cnt` and `free_xmit_extbuf_cnt`.
`sending` is the buffer whose fragments the worker is writing, with the number of
fragments behind the next one, and `mgmt` are the buffers of the management frames
that are about to be written.  Queue nodes are on `tx_queue`, at the bus (`pipe`), or
counted in `freeTxQueue`.
-/
structure TxBuffers where
  bufs : Queues BufQue XmitBuf
  sending : Option (XmitBuf × Nat)
  mgmt : List XmitBuf
  txQueue : List HifNode
  pipe : List HifNode
  freeTxQueue : Nat

def xmitBufNew (pque : BufQue) (s : TxBuffers) : Option XmitBuf × TxBuffers :=
  match wfDequeHead s.bufs pque with
  | (some (.node pxmitbuf), bufs) => (some pxmitbuf, { s with bufs })
  | _ => (none, s)

/-- The buffer is taken off whatever list it is on. -/
def xmitBufDelete (pque : BufQue) (s : TxBuffers) (pxmitbuf : XmitBuf) : TxBuffers :=
  let bufs := { s.bufs with links := wfListDelete s.bufs.links (.node pxmitbuf) }
  { s with bufs := wfEnqueTail bufs (.node pxmitbuf) pque }

def wfXmitBufNew : TxBuffers → Option XmitBuf × TxBuffers := xmitBufNew .xmitBufQueue

def wfXmitExtbufNew : TxBuffers → Option XmitBuf × TxBuffers := xmitBufNew .xmitExtbufQueue

def wfXmitBufDelete : TxBuffers → XmitBuf → TxBuffers := xmitBufDelete .xmitBufQueue

def wfXmitExtbufDelete : TxBuffers → XmitBuf → TxBuffers := xmitBufDelete .xmitExtbufQueue

/-! ## The queue of the bus -/

inductive Inserted where
  | fail
  | waiting
  | ok (s : TxBuffers)

/-- One pass of the loop that waits for a free node. -/
def wfTxQueueInsert (s : TxBuffers) (qnode : HifNode) : Inserted :=
  if s.txQueue.length = txQueueNodeNum then .fail
  else if s.freeTxQueue = 0 then .waiting
  else .ok { s with txQueue := s.txQueue ++ [qnode], freeTxQueue := s.freeTxQueue - 1 }

def txCallback (s : TxBuffers) (param : XmitBuf) : TxCallback → TxBuffers
  | .mpduSendCompleteCb => wfXmitBufDelete s param
  | .wfXmitExtbufDelete => wfXmitExtbufDelete s param

/-- The bus takes the write, the submission of the USB request fails, or the device
is gone. -/
inductive Submitted where
  | ok
  | fail
  | removed

/-- `wf_tx_queue_remove` and the write that follows.  A failed submission calls the
callback, whether there is one or not, and keeps the node. -/
def txQueueSubmit (s : TxBuffers) (submitted : Submitted) : Option TxBuffers :=
  match s.txQueue with
  | [] => some s
  | qnode :: txQueue =>
      let s := { s with txQueue }
      match submitted with
      | .ok => some { s with pipe := s.pipe ++ [qnode] }
      | .removed => some s
      | .fail => qnode.txCallbackFunc.map (txCallback s qnode.param)

/-- The first write of a buffer that is at the bus completes.  When a USB request ends
with an error its node and its callback are forgotten. -/
def writeComplete (s : TxBuffers) (param : XmitBuf) (ok : Bool) : TxBuffers :=
  match s.pipe.find? (fun qnode => qnode.param = param) with
  | none => s
  | some qnode =>
      let s := { s with pipe := s.pipe.eraseP fun qnode => qnode.param = param }
      if ok then
        let s := match qnode.txCallbackFunc with
          | none => s
          | some callback => txCallback s param callback
        { s with freeTxQueue := s.freeTxQueue + 1 }
      else s

/-! ## The worker -/

/-- The ways of a frame through a turn of `tx_work_mpdu_xmit`: there is none, its
priority is wrong, a block-ack request is sent instead, it has no packet, its MPDUs
cannot be made, or they are made; `more` is `nr_frags - 1`. -/
inductive TurnFrame where
  | noFrame
  | errorMsdu
  | addBa
  | noPacket
  | noMpdu
  | mpdus (more : Nat)

def takeXmitBuf (s : TxBuffers) (frame : TurnFrame) : TxBuffers :=
  if s.sending.isSome then s
  else
    match wfXmitBufNew s with
    | (none, s) => s
    | (some pxmitbuf, s) =>
        match frame with
        | .mpdus more => { s with sending := some (pxmitbuf, more) }
        | _ => wfXmitBufDelete s pxmitbuf

/-- The next write of `mpdu_insert_sending_queue`, and what `tx_work_mpdu_xmit` does
when it fails. -/
def writeFragment (s : TxBuffers) : TxBuffers :=
  match s.sending with
  | none => s
  | some (pxmitbuf, 0) =>
      match wfTxQueueInsert s ⟨pxmitbuf, some .mpduSendCompleteCb⟩ with
      | .fail => wfXmitBufDelete { s with sending := none } pxmitbuf
      | .waiting => s
      | .ok s => { s with sending := none }
  | some (pxmitbuf, more + 1) =>
      match wfTxQueueInsert s ⟨pxmitbuf, none⟩ with
      | .fail => wfXmitBufDelete { s with sending := none } pxmitbuf
      | .waiting => s
      | .ok s => { s with sending := some (pxmitbuf, more) }

/-! ## Management frames -/

/-- What a function does with the buffer it has taken. -/
inductive BufferUse where
  | xmit
  | delete
  | forget
  deriving DecidableEq

def authSend (authSeq authAlgo : UInt32) : BufferUse :=
  if authSeq = 1 ∨ authSeq = 2 ∨ authSeq = 4 then .xmit
  else if authSeq = 3 then
    if authAlgo ≠ 1 then .forget else .xmit
  else .forget

/-- `wf_ap_probe` behind its checks of the request. -/
def wfApProbe (hiddenSsidMode : UInt32) (ssidMatches : Bool) : BufferUse :=
  if hiddenSsidMode = 0 then .xmit
  else if hiddenSsidMode = 1 ∨ hiddenSsidMode = 2 then
    if ssidMatches then .xmit else .delete
  else .forget

/-- `associate_xmit_frame` looks for the station when it has the buffer. -/
def associateXmitFrame (wdnInfo : Bool) : BufferUse :=
  if wdnInfo then .xmit else .forget

/-- The other functions fill the buffer and send it. -/
inductive MgmtFrame where
  | auth (authSeq authAlgo : UInt32)
  | apProbe (hiddenSsidMode : UInt32) (ssidMatches : Bool)
  | associate (wdnInfo : Bool)
  | other

def bufferUse : MgmtFrame → BufferUse
  | .auth authSeq authAlgo => authSend authSeq authAlgo
  | .apProbe hiddenSsidMode ssidMatches => wfApProbe hiddenSsidMode ssidMatches
  | .associate wdnInfo => associateXmitFrame wdnInfo
  | .other => .xmit

/-- The checks in front of the write: the driver cannot run, or there is no station on
a 40 MHz channel. -/
def wfNicMgmtFrameXmit (s : TxBuffers) (pxmitbuf : XmitBuf) (refused : Bool) : TxBuffers :=
  if refused then wfXmitExtbufDelete s pxmitbuf
  else { s with mgmt := pxmitbuf :: s.mgmt }

def sendMgmtFrame (s : TxBuffers) (frame : MgmtFrame) (refused : Bool) : TxBuffers :=
  match wfXmitExtbufNew s with
  | (none, s) => s
  | (some pxmitbuf, s) =>
      match bufferUse frame with
      | .xmit => wfNicMgmtFrameXmit s pxmitbuf refused
      | .delete => wfXmitExtbufDelete s pxmitbuf
      | .forget => s

/-- The write of a management frame; nobody looks at its result. -/
def writeMgmtFrame (s : TxBuffers) (pxmitbuf : XmitBuf) : TxBuffers :=
  if pxmitbuf ∈ s.mgmt then
    match wfTxQueueInsert s ⟨pxmitbuf, some .wfXmitExtbufDelete⟩ with
    | .fail => { s with mgmt := s.mgmt.erase pxmitbuf }
    | .waiting => s
    | .ok s => { s with mgmt := s.mgmt.erase pxmitbuf }
  else s

/-! ## Runs -/

inductive BufferOp where
  | takeXmitBuf (frame : TurnFrame)
  | writeFragment
  | sendMgmtFrame (frame : MgmtFrame) (refused : Bool)
  | writeMgmtFrame (pxmitbuf : XmitBuf)
  | submit (submitted : Submitted)
  | writeComplete (param : XmitBuf) (ok : Bool)

def bufferStep (s : TxBuffers) : BufferOp → Option TxBuffers
  | .takeXmitBuf frame => some (takeXmitBuf s frame)
  | .writeFragment => some (writeFragment s)
  | .sendMgmtFrame frame refused => some (sendMgmtFrame s frame refused)
  | .writeMgmtFrame pxmitbuf => some (writeMgmtFrame s pxmitbuf)
  | .submit submitted => txQueueSubmit s submitted
  | .writeComplete param ok => some (writeComplete s param ok)

def bufPool (pque : BufQue) : List XmitBuf := (List.finRange xmitBufferCnt).map (XmitBuf.mk pque)

def initBufs (pool : List XmitBuf) : Queues BufQue XmitBuf :=
  pool.foldl (fun bufs pxmitBuf => wfEnqueTail bufs (.node pxmitBuf) pxmitBuf.pool) wfQueInit

def xmitBufsInit : TxBuffers where
  bufs := initBufs (bufPool .xmitBufQueue ++ bufPool .xmitExtbufQueue)
  sending := none
  mgmt := []
  txQueue := []
  pipe := []
  freeTxQueue := txQueueNodeNum

/-! ## Who has a buffer -/

def nodes (s : TxBuffers) : List HifNode := s.pipe ++ s.txQueue

/-- The buffer that the callback of a node gives back. -/
def owner (qnode : HifNode) : Option XmitBuf := qnode.txCallbackFunc.map fun _ => qnode.param

/-- The buffers that someone is to give back. -/
def owed (s : TxBuffers) : List XmitBuf :=
  (s.sending.map Prod.fst).toList ++ s.mgmt ++ (nodes s).filterMap owner

def freeBufs (lists : BufQue → List XmitBuf) : List XmitBuf :=
  lists .xmitBufQueue ++ lists .xmitExtbufQueue

/--
The counters are the lengths of the queues, the buffers on a queue are its own, every
buffer is on its queue or one party is to give it back, and no node of the bus refers to
a buffer on a queue.
-/
structure OwnedAs (s : TxBuffers) (lists : BufQue → List XmitBuf) : Prop where
  holds : Holds s.bufs lists
  cnt : ∀ pque, (s.bufs.cnt pque).toNat = (lists pque).length
  own : ∀ pque, ∀ buf ∈ lists pque, buf.pool = pque
  once : (freeBufs lists ++ owed s).Perm (freeBufs bufPool)
  unreferred : ∀ qnode ∈ nodes s, qnode.param ∉ freeBufs lists

def Owned (s : TxBuffers) : Prop := ∃ lists, OwnedAs s lists

/-- No function forgets its buffer, no management frame meets a full queue and no data
frame does behind a fragment that is still at the bus, and no write that is to give a
buffer back is lost. -/
def GivesBack (s : TxBuffers) : BufferOp → Prop
  | .takeXmitBuf _ => True
  | .writeFragment => s.txQueue.length = txQueueNodeNum →
      ∀ buf more, s.sending = some (buf, more) → ∀ qnode ∈ nodes s, qnode.param ≠ buf
  | .sendMgmtFrame frame _ => bufferUse frame = .forget →
      wfQueIsEmpty s.bufs .xmitExtbufQueue = true
  | .writeMgmtFrame pxmitbuf => pxmitbuf ∈ s.mgmt → s.txQueue.length ≠ txQueueNodeNum
  | .submit .ok => True
  | .submit .fail => ∀ qnode ∈ s.txQueue.head?, qnode.txCallbackFunc.isSome ∧
      ∀ other ∈ s.pipe, other.param ≠ qnode.param
  | .submit .removed => ∀ qnode ∈ s.txQueue.head?, qnode.txCallbackFunc = none
  | .writeComplete _ true => True
  | .writeComplete param false =>
      ∀ qnode ∈ s.pipe.find? (fun qnode => qnode.param = param), qnode.txCallbackFunc = none

/-! ## The queues -/

/-- A queue holds its own buffers. -/
structure Stocked (bufs : Queues BufQue XmitBuf) (lists : BufQue → List XmitBuf) : Prop
    extends Parked bufs lists where
  own : ∀ pque, ∀ buf ∈ lists pque, buf.pool = pque

section Stock

variable {s : TxBuffers} {lists : BufQue → List XmitBuf} {pque : BufQue} {buf : XmitBuf}
  {rest : List XmitBuf}

theorem mem_freeBufs : buf ∈ freeBufs lists ↔ ∃ pque, buf ∈ lists pque := by
  unfold freeBufs
  rw [List.mem_append]
  constructor
  · intro member
    cases member with
    | inl member => exact ⟨_, member⟩
    | inr member => exact ⟨_, member⟩
  · rintro ⟨pque, member⟩
    cases pque with
    | xmitBufQueue => exact .inl member
    | xmitExtbufQueue => exact .inr member

theorem freeBufs_take (first : lists pque = buf :: rest) :
    (buf :: freeBufs (Function.update lists pque rest)).Perm (freeBufs lists) := by
  cases pque with
  | xmitBufQueue =>
      simp [freeBufs, first]
  | xmitExtbufQueue =>
      simpa [freeBufs, first] using List.perm_middle.symm

theorem freeBufs_return (lists : BufQue → List XmitBuf) (pque : BufQue) (buf : XmitBuf) :
    (freeBufs (Function.update lists pque (lists pque ++ [buf]))).Perm
      (buf :: freeBufs lists) := by
  cases pque with
  | xmitBufQueue => simp [freeBufs]
  | xmitExtbufQueue =>
      simpa [freeBufs] using List.perm_append_singleton buf
        (lists .xmitBufQueue ++ lists .xmitExtbufQueue)

theorem xmitBufNew_nil (stocked : Stocked s.bufs lists) (empty : lists pque = []) :
    xmitBufNew pque s = (none, s) := by
  unfold xmitBufNew
  rw [stocked.toHolds.dequeHead_nil empty]

theorem xmitBufNew_cons (stocked : Stocked s.bufs lists) (first : lists pque = buf :: rest) :
    ∃ bufs, xmitBufNew pque s = (some buf, { s with bufs }) ∧
      Stocked bufs (Function.update lists pque rest) := by
  obtain ⟨bufs, taken, parked⟩ := stocked.toParked.dequeHead_cons first
  unfold xmitBufNew
  rw [taken]
  refine ⟨bufs, rfl, parked, ?_⟩
  intro other buf' member
  apply stocked.own
  by_cases same : other = pque
  · subst same
    rw [Function.update_self] at member
    rw [first]
    exact List.mem_cons_of_mem buf member
  · rwa [Function.update_of_ne same] at member

theorem own_put (own : ∀ pque, ∀ buf ∈ lists pque, buf.pool = pque) (pool : buf.pool = pque)
    (other : BufQue) :
    ∀ buf' ∈ Function.update lists pque (lists pque ++ [buf]) other, buf'.pool = other := by
  intro buf' member
  by_cases same : other = pque
  · subst same
    rw [Function.update_self, List.mem_append, List.mem_singleton] at member
    cases member with
    | inl before => exact own other buf' before
    | inr back =>
        rw [back]
        exact pool
  · rw [Function.update_of_ne same] at member
    exact own other buf' member

theorem xmitBufDelete_stocked (stocked : Stocked s.bufs lists) (pool : buf.pool = pque)
    (fresh : buf ∉ freeBufs lists) :
    Stocked (xmitBufDelete pque s buf).bufs
      (Function.update lists pque (lists pque ++ [buf])) :=
  ⟨stocked.toParked.requeue fun k member => fresh (mem_freeBufs.mpr ⟨k, member⟩),
    own_put stocked.own pool⟩

theorem initBufs_stocked (pool : List XmitBuf) {bufs : Queues BufQue XmitBuf}
    (stocked : Stocked bufs lists) (nodup : (freeBufs lists ++ pool).Nodup) :
    Stocked (pool.foldl (fun bufs buf => wfEnqueTail bufs (.node buf) buf.pool) bufs)
      fun pque => lists pque ++ pool.filter fun buf => buf.pool = pque := by
  induction pool generalizing bufs lists with
  | nil => simpa using stocked
  | cons buf pool ih =>
      have split := List.nodup_middle.mp nodup
      obtain ⟨apart, rest⟩ := List.nodup_cons.mp split
      rw [List.mem_append, not_or] at apart
      have put : Stocked (wfEnqueTail bufs (.node buf) buf.pool)
          (Function.update lists buf.pool (lists buf.pool ++ [buf])) :=
        ⟨stocked.toParked.enqueTail fun k member => apart.1 (mem_freeBufs.mpr ⟨k, member⟩),
          own_put stocked.own rfl⟩
      have next := ih put (((freeBufs_return lists buf.pool buf).append_right pool).nodup_iff.mpr
        split)
      have same : (fun pque => Function.update lists buf.pool (lists buf.pool ++ [buf]) pque ++
          pool.filter fun other => other.pool = pque) =
          fun pque => lists pque ++ (buf :: pool).filter fun other => other.pool = pque := by
        funext pque
        by_cases own : pque = buf.pool
        · subst own
          simp
        · simp [own, Ne.symm own]
      rw [same] at next
      exact next

/-- The callbacks are the two functions that give a buffer back. -/
def TxCallback.pool : TxCallback → BufQue
  | .mpduSendCompleteCb => .xmitBufQueue
  | .wfXmitExtbufDelete => .xmitExtbufQueue

theorem txCallback_eq (s : TxBuffers) (param : XmitBuf) (callback : TxCallback) :
    txCallback s param callback = xmitBufDelete callback.pool s param := by
  cases callback with
  | mpduSendCompleteCb => rfl
  | wfXmitExtbufDelete => rfl

end Stock

end Smartchip.Tx
