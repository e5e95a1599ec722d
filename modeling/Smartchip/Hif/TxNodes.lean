import Mathlib.Data.List.Perm.Basic
import Mathlib.Logic.Function.Basic
import Smartchip.Foundation.Run

/-!
# The nodes of the transmit queue of the bus

`os/linux/hif/hif_queue.c` and `usb.c`.  A packet is put in a node of `free_tx_queue`, the
node goes through `tx_queue` to the consumer (the worker of SDIO, the tasklet of USB), and
comes back when the packet has been written.
-/

namespace Smartchip.Hif

open Smartchip.Foundation

/-- `WF_TX_MAX_DATA_QUEUE_NODE_NUM`. -/
def wfTxMaxDataQueueNodeNum : Nat := 32

inductive HifType where
  | sdio
  | usb
  deriving DecidableEq

/-- What `tx_info` and `param` stand for, and whether there is a callback. -/
structure TxPacket where
  param : Nat
  txCallbackFunc : Bool
  deriving DecidableEq

/-- `hand` is the node that the consumer has taken, `urbs` are those of the URBs that have
been submitted.  The packets in `spinning` are in the loop of `wf_tx_queue_insert` that waits
for a node: `queu_txop_lock` is of the type that does not lock.  `inserted` and `called`, for
the specification, are the packets that were given a node and those whose callback was
called. -/
structure TxPipe where
  freeTxQueue : List Nat
  txQueue : List Nat
  hand : Option Nat
  urbs : List Nat
  packet : Nat → TxPacket
  spinning : List TxPacket
  inserted : List TxPacket
  called : List TxPacket

/-! ## The functions -/

def wfDataQueueRemove : List Nat → Option Nat × List Nat
  | [] => (none, [])
  | qnode :: queue => (some qnode, queue)

def wfDataQueueInsert (queue : List Nat) (qnode : Nat) : List Nat := queue ++ [qnode]

def wfDataQueueFull (queue : List Nat) (queueNodeNum : Nat) : Bool := queueNodeNum = queue.length

def wfTxQueueEmpty (s : TxPipe) : Bool := wfDataQueueFull s.freeTxQueue wfTxMaxDataQueueNodeNum

/-- `wf_tx_queue_insert` up to its loop. -/
def wfTxQueueInsert (s : TxPipe) (pkt : TxPacket) : TxPipe :=
  if wfDataQueueFull s.txQueue wfTxMaxDataQueueNodeNum then s
  else { s with spinning := s.spinning ++ [pkt] }

/-- One pass of the loop of `wf_tx_queue_insert`, and what is behind the loop when there was
a node. -/
def wfTxQueueAcquire (s : TxPipe) (i : Nat) : TxPipe :=
  match s.spinning[i]?, wfDataQueueRemove s.freeTxQueue with
  | some pkt, (some qnode, free) => {
      s with
      freeTxQueue := free
      txQueue := wfDataQueueInsert s.txQueue qnode
      packet := Function.update s.packet qnode pkt
      spinning := s.spinning.eraseIdx i
      inserted := s.inserted ++ [pkt] }
  | _, _ => s

/-- The consumer takes the next node when it is through with the last one. -/
def wfTxQueueRemove (s : TxPipe) : TxPipe :=
  match s.hand, wfDataQueueRemove s.txQueue with
  | none, (some qnode, queue) => { s with hand := some qnode, txQueue := queue }
  | _, _ => s

/-- The callback of a packet, if it has one. -/
def callBack (s : TxPipe) (qnode : Nat) : TxPipe :=
  if (s.packet qnode).txCallbackFunc then { s with called := s.called ++ [s.packet qnode] }
  else s

/-- The end of the loop of `wf_tx_work_agg`; what the bus answered is not looked at. -/
def wfTxWorkAgg (s : TxPipe) (qnode : Nat) : TxPipe :=
  let s := callBack s qnode
  { s with hand := none, freeTxQueue := wfDataQueueInsert s.freeTxQueue qnode }

/-- A submission that fails calls the callback without asking if there is one, and does not
give the node back. -/
def wfUsbWritePort (s : TxPipe) (qnode : Nat) (ret : Int) : Option TxPipe :=
  if ret = 0 then some { s with hand := none, urbs := qnode :: s.urbs }
  else if (s.packet qnode).txCallbackFunc then some { callBack s qnode with hand := none }
  else none

/-- A transfer that ends with an error is logged, and that is all. -/
def usbWritePortComplete (s : TxPipe) (qnode : Nat) (status : Int) : TxPipe :=
  if status = 0 then
    let s := callBack s qnode
    { s with freeTxQueue := wfDataQueueInsert s.freeTxQueue qnode }
  else s

inductive TxPipeEvent where
  | insert (pkt : TxPacket)
  | acquire (i : Nat)
  | remove
  | write (ret : Int)
  | complete (qnode : Nat) (status : Int)

def txPipeStep (hifType : HifType) (s : TxPipe) : TxPipeEvent → Option TxPipe
  | .insert pkt => some (wfTxQueueInsert s pkt)
  | .acquire i => some (wfTxQueueAcquire s i)
  | .remove => some (wfTxQueueRemove s)
  | .write ret =>
      match s.hand with
      | none => some s
      | some qnode =>
          match hifType with
          | .sdio => some (wfTxWorkAgg s qnode)
          | .usb => wfUsbWritePort s qnode ret
  | .complete qnode status =>
      if qnode ∈ s.urbs then
        some (usbWritePortComplete { s with urbs := s.urbs.erase qnode } qnode status)
      else some s

/-- Behind `wf_data_queue_mngt_init`. -/
def txPipeStart : TxPipe where
  freeTxQueue := List.range wfTxMaxDataQueueNodeNum
  txQueue := []
  hand := none
  urbs := []
  packet := fun _ => ⟨0, false⟩
  spinning := []
  inserted := []
  called := []

/-! ## What is to hold -/

/-- The nodes that the consumer or the bus has. -/
def inFlight (s : TxPipe) : List Nat := s.hand.toList ++ s.urbs

/-- Every node is in one place, and of every packet that has left flight the callback was
called once. -/
structure Conserved (s : TxPipe) : Prop where
  nodes : (s.freeTxQueue ++ s.txQueue ++ inFlight s).Perm (List.range wfTxMaxDataQueueNodeNum)
  callbacks : (s.called ++ ((s.txQueue ++ inFlight s).map s.packet).filter
      TxPacket.txCallbackFunc).Perm (s.inserted.filter TxPacket.txCallbackFunc)

/-- Nobody waits for a node in vain when no packet is on its way. -/
def NeverStuck (s : TxPipe) : Prop :=
  inFlight s = [] → s.txQueue = [] →
    wfTxQueueEmpty s = true ∧ (wfDataQueueRemove s.freeTxQueue).1.isSome

/-- On USB every submission succeeds, and every transfer ends without an error. -/
def BusWell (hifType : HifType) (s : TxPipe) : TxPipeEvent → Prop
  | .write ret => hifType = .usb → s.hand ≠ none → ret = 0
  | .complete qnode status => qnode ∈ s.urbs → status = 0
  | .insert _ | .acquire _ | .remove => True

/-! ## What leaves flight -/

section Flight

variable {s next : TxPipe} {qnode : Nat} {rest : List Nat} {hifType : HifType}
  {event : TxPipeEvent}

theorem callBack_eq (s : TxPipe) (qnode : Nat) :
    callBack s qnode =
      { s with called := s.called ++ [s.packet qnode].filter TxPacket.txCallbackFunc } := by
  unfold callBack
  cases callback : (s.packet qnode).txCallbackFunc with
  | true => simp [callback]
  | false => simp [callback]

/-- A packet leaves flight and its callback is called. -/
theorem callbacks_leave {called before after inserted : List TxPacket} {pkt : TxPacket}
    (left : before.Perm (pkt :: after))
    (old : (called ++ before.filter TxPacket.txCallbackFunc).Perm inserted) :
    ((called ++ [pkt].filter TxPacket.txCallbackFunc) ++
      after.filter TxPacket.txCallbackFunc).Perm inserted := by
  have kept := (left.filter TxPacket.txCallbackFunc).symm
  rw [List.append_assoc, ← List.filter_append]
  exact (kept.append_left called).trans old

theorem Conserved.nodup (conserved : Conserved s) :
    (s.freeTxQueue ++ s.txQueue ++ inFlight s).Nodup :=
  conserved.nodes.nodup_iff.mpr List.nodup_range

/-- A node that is nowhere. -/
theorem not_conserved (qnode : Nat)
    (before : (s.freeTxQueue ++ s.txQueue ++ inFlight s).Perm
      (List.range wfTxMaxDataQueueNodeNum))
    (lost : (s.freeTxQueue ++ s.txQueue ++ inFlight s).Perm
      (qnode :: (next.freeTxQueue ++ next.txQueue ++ inFlight next))) : ¬ Conserved next := by
  intro conserved
  have all := (lost.symm.trans before).length_eq
  have fewer := conserved.nodes.length_eq
  rw [List.length_cons] at all
  omega

/-- The node goes back to the free ones, and the callback is called. -/
theorem Conserved.leaves (qnode : Nat) (conserved : Conserved s)
    (flight : (inFlight s).Perm (qnode :: inFlight next))
    (free : next.freeTxQueue = s.freeTxQueue ++ [qnode]) (queue : next.txQueue = s.txQueue)
    (packet : next.packet = s.packet) (inserted : next.inserted = s.inserted)
    (called : next.called =
      s.called ++ [s.packet qnode].filter TxPacket.txCallbackFunc) : Conserved next := by
  constructor
  · rw [free, queue]
    calc
      List.Perm (s.freeTxQueue ++ [qnode] ++ s.txQueue ++ inFlight next)
          (s.freeTxQueue ++ s.txQueue ++ (qnode :: inFlight next)) := by
        simp only [List.append_assoc, List.singleton_append]
        exact (List.perm_middle.symm).append_left _
      List.Perm _ (s.freeTxQueue ++ s.txQueue ++ inFlight s) := flight.symm.append_left _
      List.Perm _ (List.range wfTxMaxDataQueueNodeNum) := conserved.nodes
  · rw [called, queue, packet, inserted]
    apply callbacks_leave _ conserved.callbacks
    calc
      List.Perm ((s.txQueue ++ inFlight s).map s.packet)
          ((s.txQueue ++ qnode :: inFlight next).map s.packet) :=
        (flight.append_left _).map _
      List.Perm _ ((qnode :: (s.txQueue ++ inFlight next)).map s.packet) :=
        List.perm_middle.map _

theorem Conserved.acquire (conserved : Conserved s) (i : Nat) :
    Conserved (wfTxQueueAcquire s i) := by
  unfold wfTxQueueAcquire
  cases waiting : s.spinning[i]? with
  | none => exact conserved
  | some pkt =>
      cases free : s.freeTxQueue with
      | nil => exact conserved
      | cons qnode rest =>
          have once := conserved.nodup
          rw [free] at once
          have elsewhere : ∀ other ∈ s.txQueue ++ inFlight s, other ≠ qnode := by
            rintro other member rfl
            simp only [List.cons_append, List.append_assoc, List.nodup_cons,
              List.mem_append] at once member
            tauto
          constructor
          · have all := conserved.nodes
            rw [free] at all
            refine List.Perm.trans ?_ all
            simp only [wfDataQueueRemove, wfDataQueueInsert, inFlight, List.append_assoc,
              List.cons_append]
            rw [← List.append_assoc rest]
            exact List.perm_middle.trans (by simp)
          · have same : ((s.txQueue ++ inFlight s).map
                (Function.update s.packet qnode pkt)) = (s.txQueue ++ inFlight s).map s.packet :=
              List.map_congr_left fun other member =>
                Function.update_of_ne (elsewhere other member) _ _
            have moved : ((s.txQueue ++ [qnode] ++ inFlight s).map
                (Function.update s.packet qnode pkt)).Perm
                ((s.txQueue ++ inFlight s).map s.packet ++ [pkt]) := by
              rw [← same]
              simp only [List.map_append, List.map_cons, List.map_nil, Function.update_self,
                List.append_assoc]
              exact List.perm_append_comm.append_left _
            have kept := moved.filter TxPacket.txCallbackFunc
            rw [List.filter_append] at kept
            simp only [wfDataQueueRemove, wfDataQueueInsert]
            rw [List.filter_append]
            refine (kept.append_left s.called).trans ?_
            rw [← List.append_assoc]
            exact conserved.callbacks.append_right _

theorem Conserved.remove (conserved : Conserved s) : Conserved (wfTxQueueRemove s) := by
  unfold wfTxQueueRemove
  cases hand : s.hand with
  | some qnode => exact conserved
  | none =>
      cases queue : s.txQueue with
      | nil => exact conserved
      | cons qnode rest =>
          have nodes := conserved.nodes
          have callbacks := conserved.callbacks
          simp only [inFlight, hand, queue] at nodes callbacks
          have moved : (rest ++ ([qnode] ++ s.urbs)).Perm (qnode :: rest ++ s.urbs) :=
            List.perm_middle
          constructor
          · simp only [wfDataQueueRemove, inFlight]
            refine List.Perm.trans ?_ nodes
            simp only [List.append_assoc]
            exact moved.append_left _
          · simp only [wfDataQueueRemove, inFlight]
            exact ((((moved.map s.packet).filter _).append_left _).trans callbacks)

theorem Conserved.neverStuck (conserved : Conserved s) : NeverStuck s := by
  intro flight queue
  have all := conserved.nodes.length_eq
  simp only [flight, queue, List.append_nil, List.length_range] at all
  constructor
  · simp [wfTxQueueEmpty, wfDataQueueFull, all]
  · cases free : s.freeTxQueue with
    | nil => simp [free, wfTxMaxDataQueueNodeNum] at all
    | cons qnode rest => rfl

theorem Conserved.step (conserved : Conserved s) (well : BusWell hifType s event) :
    ∃ next, txPipeStep hifType s event = some next ∧ Conserved next := by
  cases event with
  | insert pkt =>
      refine ⟨_, rfl, ?_⟩
      unfold wfTxQueueInsert
      split_ifs
      · exact conserved
      · exact ⟨conserved.nodes, conserved.callbacks⟩
  | acquire i => exact ⟨_, rfl, conserved.acquire i⟩
  | remove => exact ⟨_, rfl, conserved.remove⟩
  | write ret =>
      cases hand : s.hand with
      | none => exact ⟨s, by simp [txPipeStep, hand], conserved⟩
      | some qnode =>
          cases hifType with
          | sdio =>
              refine ⟨wfTxWorkAgg s qnode, by simp [txPipeStep, hand], ?_⟩
              apply conserved.leaves qnode <;>
                simp [wfTxWorkAgg, callBack_eq, inFlight, hand, wfDataQueueInsert]
          | usb =>
              have fine : ret = 0 := well rfl (by simp [hand])
              refine ⟨{ s with hand := none, urbs := qnode :: s.urbs }, ?_, ?_⟩
              · simp [txPipeStep, hand, wfUsbWritePort, fine]
              · have same : inFlight { s with hand := none, urbs := qnode :: s.urbs } =
                    inFlight s := by simp [inFlight, hand]
                refine ⟨?_, ?_⟩
                · rw [same]
                  exact conserved.nodes
                · rw [same]
                  exact conserved.callbacks
  | complete qnode status =>
      by_cases submitted : qnode ∈ s.urbs
      · have fine : status = 0 := well submitted
        refine ⟨usbWritePortComplete { s with urbs := s.urbs.erase qnode } qnode status,
          by simp [txPipeStep, submitted], ?_⟩
        apply conserved.leaves qnode <;>
          simp [usbWritePortComplete, fine, callBack_eq, wfDataQueueInsert]
        exact ((List.perm_cons_erase submitted).append_left _).trans List.perm_middle
      · exact ⟨s, by simp [txPipeStep, submitted], conserved⟩

/-- After a refused submission or a failed transfer the node is nowhere. -/
theorem Conserved.lost (conserved : Conserved s) (bad : ¬ BusWell hifType s event)
    (steps : txPipeStep hifType s event = some next) : ¬ Conserved next := by
  cases event with
  | write ret =>
      simp only [BusWell, Classical.not_imp] at bad
      obtain ⟨rfl, held, refused⟩ := bad
      obtain ⟨qnode, hand⟩ := Option.ne_none_iff_exists'.mp held
      simp only [txPipeStep, hand, wfUsbWritePort, refused, if_false] at steps
      split_ifs at steps
      cases steps
      apply not_conserved qnode conserved.nodes
      simp only [callBack_eq, inFlight, hand, Option.toList_some, Option.toList_none,
        List.nil_append, List.singleton_append]
      exact List.perm_middle
  | complete qnode status =>
      simp only [BusWell, Classical.not_imp] at bad
      obtain ⟨submitted, failed⟩ := bad
      simp only [txPipeStep, submitted, if_true, usbWritePortComplete, failed, if_false] at steps
      cases steps
      apply not_conserved qnode conserved.nodes
      simp only [inFlight]
      refine List.Perm.trans (((List.perm_cons_erase submitted).append_left _).append_left _) ?_
      simp only [← List.append_assoc]
      exact List.perm_middle
  | insert pkt => exact absurd trivial bad
  | acquire i => exact absurd trivial bad
  | remove => exact absurd trivial bad

end Flight

/-! ## Runs -/

theorem txPipeStart_conserved : Conserved txPipeStart := by
  constructor <;> simp [txPipeStart, inFlight]

/-- On SDIO always, and on USB exactly as long as the bus does what it is asked to, no node
is lost and no callback is left out. -/
theorem tx_nodes_conserved_iff (hifType : HifType) (events : List TxPipeEvent) :
    Throughout (txPipeStep hifType) (fun s => Conserved s ∧ NeverStuck s) txPipeStart events ↔
      EachStep (txPipeStep hifType) (BusWell hifType) txPipeStart events := by
  apply throughout_iff_of_clean Conserved
  · intro s conserved
    exact ⟨conserved, conserved.neverStuck⟩
  · intro s event conserved well
    exact conserved.step well
  · intro s event next conserved bad steps good
    exact conserved.lost bad steps good.1
  · exact txPipeStart_conserved

/-- A submission is refused, and a transfer ends with `-EPROTO`. -/
theorem tx_nodes_lost :
    ¬ Throughout (txPipeStep .usb) (fun s => Conserved s ∧ NeverStuck s) txPipeStart
        [.insert ⟨1, true⟩, .acquire 0, .remove, .write (-12)] ∧
      ¬ Throughout (txPipeStep .usb) (fun s => Conserved s ∧ NeverStuck s) txPipeStart
        [.insert ⟨1, true⟩, .acquire 0, .remove, .write 0, .complete 0 (-71)] := by
  constructor
  · intro throughout
    have ends : ((run (txPipeStep .usb) txPipeStart
        [.insert ⟨1, true⟩, .acquire 0, .remove, .write (-12)]).map fun s =>
          (s.freeTxQueue ++ s.txQueue ++ inFlight s).length) = some 31 := by decide +kernel
    obtain ⟨final, ⟨conserved, -⟩, count⟩ := throughout.observed ends
    rw [conserved.nodes.length_eq, List.length_range] at count
    cases count
  · intro throughout
    have ends : ((run (txPipeStep .usb) txPipeStart
        [.insert ⟨1, true⟩, .acquire 0, .remove, .write 0, .complete 0 (-71)]).map fun s =>
          (s.freeTxQueue ++ s.txQueue ++ inFlight s).length) = some 31 := by decide +kernel
    obtain ⟨final, ⟨conserved, -⟩, count⟩ := throughout.observed ends
    rw [conserved.nodes.length_eq, List.length_range] at count
    cases count

end Smartchip.Hif
