import Mathlib.Data.List.Basic
import Mathlib.Logic.Function.Basic
import Smartchip.Foundation.Run

/-!
# The block-ack reorder engine

One `recv_ba_ctrl_st` per traffic identifier keeps received frames in sequence
order (`nic/rx.c`).  The control block is entered with
`pending_get_de_queue_lock` held, so every function below is one atomic step on
it.  Socket buffers are an arbitrary type `α`; the calls of the two callbacks
and of `wf_kfree` are recorded in the control block in the order they are made.
-/

namespace Smartchip.Rx

open Smartchip.Foundation

universe u

/-- `SN_LESS`: bit 11 of the difference of the promoted operands. -/
def snLess (a b : UInt16) : Bool :=
  ((a.toUInt32 - b.toUInt32) &&& 0x800) != 0

def snEqual (a b : UInt16) : Bool := a == b

/-- `rx_reorder_queue_st`; `node` tells the allocations apart. -/
structure RxReorderQueue (α : Type u) where
  node : Nat
  seqNum : UInt16
  pskb : Option α
  deriving DecidableEq, Repr

structure WfQue (ι : Type u) where
  list : List ι
  cnt : UInt32
  deriving DecidableEq, Repr

inductive ReorderState where
  | drop
  | send
  | enque
  | enqueSend
  | dequeSend
  deriving DecidableEq, Repr

def ReorderState.val : ReorderState → Int
  | .drop => -1
  | .send => 0
  | .enque => 1
  | .enqueSend => 2
  | .dequeSend => 3

/--
`recv_ba_ctrl_st`.  `reorderingCtrlTimer` is whether the timer is armed.  The
last three fields are the arguments given so far to `upload_func`, to
`free_skb` and to `wf_kfree`.
-/
structure RecvBaCtrl (α : Type u) where
  enable : Bool
  indicateSeq : UInt16
  wendB : UInt16
  wsizeB : UInt8
  pendingReorderQueue : WfQue (RxReorderQueue α)
  freeOrderQueue : WfQue (RxReorderQueue α)
  reorderingCtrlTimer : Bool
  waitTimeout : UInt8
  dropPkts : UInt64
  uploaded : List α
  freed : List (Option α)
  released : List Nat
  deriving DecidableEq, Repr

variable {α : Type u}

/-! ## Queues -/

def wfEnqueTail {ι : Type u} (queue : WfQue ι) (item : ι) : WfQue ι :=
  ⟨queue.list ++ [item], queue.cnt + 1⟩

/-- `wf_que_is_empty` reads the list and not the counter. -/
def rxFreeReorderEmpty (ba : RecvBaCtrl α) : Bool :=
  ba.freeOrderQueue.list.isEmpty

def rxFreeReorderDequeue (ba : RecvBaCtrl α) :
    Option (RxReorderQueue α × RecvBaCtrl α) :=
  match ba.freeOrderQueue.list with
  | [] => none
  | node :: rest =>
      some (node, { ba with
        freeOrderQueue := ⟨rest, ba.freeOrderQueue.cnt - 1⟩ })

/--
The node goes in front of the first one: `wf_list_insert_tail` is called on the
list's first element and not on its head.  The counter is taken down, as in the
source.
-/
def rxFreeReorderEnqueue (ba : RecvBaCtrl α) (node : RxReorderQueue α) :
    RecvBaCtrl α :=
  { ba with freeOrderQueue :=
      ⟨node :: ba.freeOrderQueue.list, ba.freeOrderQueue.cnt - 1⟩ }

def rxPendingReorderIsEmpty (ba : RecvBaCtrl α) : Bool :=
  ba.pendingReorderQueue.list.isEmpty

def rxPendingReorderGetqueue (ba : RecvBaCtrl α) : Option (RxReorderQueue α) :=
  ba.pendingReorderQueue.list.head?

def rxPendingReorderDequeue (ba : RecvBaCtrl α) :
    Option (RxReorderQueue α × RecvBaCtrl α) :=
  match ba.pendingReorderQueue.list with
  | [] => none
  | node :: rest =>
      some (node, { ba with
        pendingReorderQueue := ⟨rest, ba.pendingReorderQueue.cnt - 1⟩ })

def rxPendingReorderGetCnt (ba : RecvBaCtrl α) : Int :=
  ba.pendingReorderQueue.cnt.toNat

/--
The walk of `rx_pending_reorder_enqueue` from the tail.  `before` is the part
not yet looked at, last node first; `after` holds the nodes that were passed.
A node with the same number ends the walk with `none`.
-/
def scanPrev (currentSeq : UInt16) :
    List (RxReorderQueue α) → List (RxReorderQueue α) →
      Option (List (RxReorderQueue α) × List (RxReorderQueue α))
  | [], after => some ([], after)
  | node :: before, after =>
      if snEqual node.seqNum currentSeq then none
      else if snLess currentSeq node.seqNum then
        scanPrev currentSeq before (node :: after)
      else some (node :: before, after)

/--
`rx_pending_reorder_enqueue`.  The outcome `none` is the busy-wait loop: it
calls `rx_free_reorder_dequeue` again with the lock held, so no other path can
put a node back and an empty pool keeps it there.
-/
def rxPendingReorderEnqueue (currentSeq : UInt16) (pskb : Option α)
    (ba : RecvBaCtrl α) : Option (Int × RecvBaCtrl α) :=
  match pskb with
  | none => some (ReorderState.drop.val, ba)
  | some skb =>
      match scanPrev currentSeq ba.pendingReorderQueue.list.reverse [] with
      | none => some (-1, { ba with dropPkts := ba.dropPkts + 1 })
      | some (before, after) => do
          let (free, ba) ← rxFreeReorderDequeue ba
          let node : RxReorderQueue α :=
            { free with seqNum := currentSeq, pskb := some skb }
          some (0, { ba with pendingReorderQueue :=
            ⟨before.reverse ++ node :: after,
              ba.pendingReorderQueue.cnt + 1⟩ })

/-! ## The window -/

def rxDoChkExpectSeq (seqNum : UInt16) (ba : RecvBaCtrl α) :
    ReorderState × RecvBaCtrl α :=
  let ba :=
    if ba.indicateSeq = 0xFFFF then { ba with indicateSeq := seqNum } else ba
  let ba := { ba with
    wendB := (ba.indicateSeq + ba.wsizeB.toUInt16 - 1) &&& 0xFFF }
  if snEqual seqNum ba.indicateSeq then
    (.enque, { ba with indicateSeq := (ba.indicateSeq + 1) &&& 0xFFF })
  else if snLess seqNum ba.indicateSeq then
    (.drop, { ba with dropPkts := ba.dropPkts + 1 })
  else if snLess ba.wendB seqNum then
    if (ba.wsizeB.toNat : Int) - 1 ≤ seqNum.toNat then
      (.enque, { ba with indicateSeq := seqNum + 1 - ba.wsizeB.toUInt16 })
    else
      (.enque, { ba with
        indicateSeq := 0xFFF - (ba.wsizeB.toUInt16 - (seqNum + 1)) + 1 })
  else (.enque, ba)

/--
The loop of `rx_reorder_upload`; `tmp_ret` is zero wherever the loop is left
except in the branch that reads the counter.
-/
def uploadLoop : Nat → RecvBaCtrl α → Option (Int × RecvBaCtrl α)
  | 0, _ => none
  | fuel + 1, ba =>
      match rxPendingReorderGetqueue ba with
      | none => some (0, ba)
      | some getReorder =>
          if snLess ba.indicateSeq getReorder.seqNum then
            some (rxPendingReorderGetCnt ba, ba)
          else
            match rxPendingReorderDequeue ba with
            | none => none
            | some (deReorder, ba) =>
                if deReorder.node ≠ getReorder.node then do
                  let (_, ba) ← rxPendingReorderEnqueue deReorder.seqNum
                    deReorder.pskb ba
                  some (0, ba)
                else
                  let ba :=
                    if snEqual ba.indicateSeq deReorder.seqNum then
                      { ba with
                        indicateSeq := (ba.indicateSeq + 1) &&& 0xFFF }
                    else ba
                  let ba := { ba with
                    uploaded := ba.uploaded ++ deReorder.pskb.toList }
                  uploadLoop fuel (rxFreeReorderEnqueue ba deReorder)

def rxReorderUpload (ba : RecvBaCtrl α) : Option (Int × RecvBaCtrl α) :=
  uploadLoop (ba.pendingReorderQueue.list.length + 1) ba

/-- `wf_os_api_timer_set` under the test of the `wf_u8` packet count. -/
def timerSetIfQueued (pktCntInQueue : Int) (ba : RecvBaCtrl α) :
    RecvBaCtrl α :=
  if UInt8.ofInt pktCntInQueue ≠ 0 then
    { ba with reorderingCtrlTimer := true }
  else ba

/-- The timer is no longer armed once its handler has been started. -/
def rxReorderTimeoutHandle (ba : RecvBaCtrl α) : Option (RecvBaCtrl α) :=
  let ba := { ba with reorderingCtrlTimer := false }
  match rxPendingReorderGetqueue ba with
  | none => some ba
  | some getReorder => do
      let (cnt, ba) ← rxReorderUpload { ba with
        indicateSeq := getReorder.seqNum }
      some (timerSetIfQueued cnt ba)

def wfRxDataReorderCore (seqNum : UInt16) (pskb : Option α)
    (ba : RecvBaCtrl α) : Option (RecvBaCtrl α) :=
  match pskb with
  | none => some ba
  | some skb => do
      let (state, ba) := rxDoChkExpectSeq seqNum ba
      let (ret, ba) ←
        if state = .enque then rxPendingReorderEnqueue seqNum (some skb) ba
        else some (state.val, ba)
      if ret < 0 then some { ba with freed := ba.freed ++ [some skb] }
      else do
        let (cnt, ba) ← rxReorderUpload ba
        some (timerSetIfQueued cnt ba)

/-! ## Set-up and teardown -/

def baReorderQueueNum : Nat := 64

/--
The body of `wf_rx_action_ba_ctl_init` for one TID.  `kzalloc i` is whether the
`i`-th allocation succeeds; the loop stops at the first one that fails.
-/
def baCtlInit (kzalloc : Nat → Bool) : RecvBaCtrl α where
  enable := false
  indicateSeq := 0xFFFF
  wendB := 0xFFFF
  wsizeB := 64
  pendingReorderQueue := ⟨[], 0⟩
  freeOrderQueue :=
    (((List.range baReorderQueueNum).takeWhile kzalloc).map
      fun i => ⟨i, 0, none⟩).foldl wfEnqueTail ⟨[], 0⟩
  reorderingCtrlTimer := false
  waitTimeout := 0
  dropPkts := 0
  uploaded := []
  freed := []
  released := []

/-- What `core_conn_maintain_ba_rsp_thrd` does once the response is sent. -/
def baCtlEnable (waitTimeout : UInt8) (ba : RecvBaCtrl α) : RecvBaCtrl α :=
  { ba with enable := true, waitTimeout }

/--
The loop that empties the pending queue in `wf_rx_ba_reinit` and in
`wf_rx_action_ba_ctl_deinit`.  Both test `NULL == order_node->pskb` before the
call of `free_skb`.
-/
def freePendingLoop : Nat → RecvBaCtrl α → RecvBaCtrl α
  | 0, ba => ba
  | fuel + 1, ba =>
      match rxPendingReorderDequeue ba with
      | none => ba
      | some (orderNode, ba) =>
          let ba :=
            if orderNode.pskb.isNone then
              { ba with freed := ba.freed ++ [orderNode.pskb] }
            else ba
          freePendingLoop fuel { ba with
            released := ba.released ++ [orderNode.node] }

def freePending (ba : RecvBaCtrl α) : RecvBaCtrl α :=
  if rxPendingReorderIsEmpty ba then ba
  else freePendingLoop (ba.pendingReorderQueue.list.length + 1) ba

def baReinit (ba : RecvBaCtrl α) : RecvBaCtrl α :=
  freePending { ba with
    enable := false, indicateSeq := 0xFFFF, wendB := 0xFFFF }

/-- The locked part of `wf_rx_action_ba_ctl_deinit`; the free list is kept as
it is after its nodes are gone. -/
def baDeinit (ba : RecvBaCtrl α) : RecvBaCtrl α :=
  let ba := freePending ba
  if rxFreeReorderEmpty ba then ba
  else { ba with
    released := ba.released ++ ba.freeOrderQueue.list.map (·.node) }

/-! ## One traffic identifier as a transition system -/

def seqField (seq : BitVec 12) : UInt16 := ⟨seq.setWidth 16⟩

inductive ReorderStep (α : Type u) where
  | frame (seq : BitVec 12) (skb : α)
  | timeout
  | reinit
  | addba (waitTimeout : UInt8)
  deriving DecidableEq, Repr

def reorderStep (ba : RecvBaCtrl α) : ReorderStep α → Option (RecvBaCtrl α)
  | .frame seq skb => wfRxDataReorderCore (seqField seq) (some skb) ba
  | .timeout => rxReorderTimeoutHandle ba
  | .reinit => some (baReinit ba)
  | .addba waitTimeout => some (baCtlEnable waitTimeout ba)

def reorderRun (ba : RecvBaCtrl α) (steps : List (ReorderStep α)) :
    Option (RecvBaCtrl α) :=
  run reorderStep ba steps

def givenSkbs : List (ReorderStep α) → List α
  | [] => []
  | .frame _ skb :: steps => skb :: givenSkbs steps
  | _ :: steps => givenSkbs steps

def pendingSkbs (ba : RecvBaCtrl α) : List (Option α) :=
  ba.pendingReorderQueue.list.map (·.pskb)

/-! ## All traffic identifiers of one interface -/

abbrev tidNum : Nat := 16

abbrev BaCtl (α : Type u) := Fin tidNum → RecvBaCtrl α

def wfRxActionBaCtlInit (kzalloc : Fin tidNum → Nat → Bool) : BaCtl α :=
  fun tid => baCtlInit (kzalloc tid)

def wfRxActionBaCtlDeinit (baCtl : BaCtl α) : BaCtl α :=
  fun tid => baDeinit (baCtl tid)

def wfRxBaReinit (tid : UInt8) (baCtl : BaCtl α) : Int × BaCtl α :=
  if inRange : tid.toNat < tidNum then
    (0, Function.update baCtl ⟨tid.toNat, inRange⟩
      (baReinit (baCtl ⟨tid.toNat, inRange⟩)))
  else (-2, baCtl)

def wfRxBaAllReinit (baCtl : BaCtl α) : BaCtl α :=
  (List.range tidNum).foldl
    (fun baCtl tid => (wfRxBaReinit (UInt8.ofNat tid) baCtl).2) baCtl

inductive NicStep (α : Type u) where
  | frame (tid : Fin tidNum) (seq : BitVec 12) (skb : α)
  | timeout (tid : Fin tidNum)
  | addba (tid : Fin tidNum) (waitTimeout : UInt8)
  | reinit (tid : UInt8)
  | allReinit
  deriving DecidableEq, Repr

def nicStep (baCtl : BaCtl α) : NicStep α → Option (BaCtl α)
  | .frame tid seq skb =>
      (reorderStep (baCtl tid) (.frame seq skb)).map
        (Function.update baCtl tid)
  | .timeout tid =>
      (reorderStep (baCtl tid) .timeout).map (Function.update baCtl tid)
  | .addba tid waitTimeout =>
      (reorderStep (baCtl tid) (.addba waitTimeout)).map
        (Function.update baCtl tid)
  | .reinit tid => some (wfRxBaReinit tid baCtl).2
  | .allReinit => some (wfRxBaAllReinit baCtl)

def nicRun (baCtl : BaCtl α) (steps : List (NicStep α)) : Option (BaCtl α) :=
  run nicStep baCtl steps

end Smartchip.Rx
