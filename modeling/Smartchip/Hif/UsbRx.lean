import Smartchip.Hif.TxNodes

/-!
# Reception over USB

`usb_read_port_complete` and `wf_usb_read_port` of `os/linux/hif/usb.c`, and of
`hif_queue.c` the tasklet that handles the frames and `wf_hif_queue_enable`.  A node of
`free_rx_queue` takes a buffer from `free_rx_queue_skb` and goes to the bus; a frame leaves
the node for `rx_queue` and comes back to the pool from the tasklet.
-/

namespace Smartchip.Hif

open Smartchip.Foundation

/-- `WF_RX_MAX_DATA_QUEUE_NODE_NUM`. -/
def wfRxMaxDataQueueNodeNum : Nat := 14

def hifQueueAllocSkbNum : Nat := 16

def hifMaxAllocCnt : Nat := 4

def eperm : Int := 1

/-- `purb->status`. -/
inductive UrbStatus where
  | ok
  | einval
  | epipe
  | enodev
  | eshutdown
  | enoent
  | eproto
  | eilseq
  | etime
  | ecomm
  | eoverflow
  | einprogress
  | unknown
  deriving DecidableEq

/-- The cases of the switch that fall through to `dev_removed`. -/
def UrbStatus.removes : UrbStatus → Bool
  | .einval | .epipe | .enodev | .eshutdown | .enoent => true
  | .ok | .eproto | .eilseq | .etime | .ecomm | .eoverflow | .einprogress | .unknown => false

/-- How a URB ends: what the checks say about the data, `lenCheck` being -1 when there is no
nic, and what `usb_submit_urb` returns and how many buffers there is memory for when the node
is read again. -/
structure RxUrb where
  status : UrbStatus
  actualLength : Nat
  lenCheck : Int
  frame : Bool
  submit : Int
  mem : Nat
  deriving DecidableEq

/-- Nodes and buffers are numbers, and `skbs` is how many buffers have been allocated.  `urbs`
are the nodes with a URB in flight; `hand` is the buffer that the tasklet is handling. -/
structure RxPipe where
  freeRxQueueSkb : List Nat
  rxQueue : List Nat
  freeRxQueue : List Nat
  buff : Nat → Option Nat
  urbs : List Nat
  hand : Option Nat
  running : Bool
  sched : Bool
  allocCnt : Nat
  devRemoved : Bool
  hifTrCtrl : Bool
  skbs : Nat

/-! ## The functions -/

/-- `MIN_RXD_SIZE`. -/
def minRxdSize (richv200 : Bool) : Nat := if richv200 then 16 else 24

def wfHifQueueAllocSkb (s : RxPipe) (mem : Nat) : RxPipe :=
  { s with
    freeRxQueueSkb := s.freeRxQueueSkb ++ List.range' s.skbs (min mem hifQueueAllocSkbNum)
    skbs := s.skbs + min mem hifQueueAllocSkbNum }

/-- A node without a buffer takes one from the pool. -/
def fillBuff (s : RxPipe) (qnode : Nat) : RxPipe :=
  match s.buff qnode, s.freeRxQueueSkb with
  | none, skb :: free =>
      { s with freeRxQueueSkb := free, buff := Function.update s.buff qnode (some skb) }
  | _, _ => s

/-- A submission that is refused with `-EPERM` goes for one that was accepted. -/
def wfUsbReadPort (s : RxPipe) (qnode : Nat) (submit : Int) (mem : Nat) : RxPipe :=
  if s.devRemoved then s
  else
    let s := fillBuff s qnode
    match s.buff qnode with
    | none =>
        let s :=
          if s.allocCnt < hifMaxAllocCnt then
            wfHifQueueAllocSkb { s with allocCnt := s.allocCnt + 1 } mem
          else s
        { s with freeRxQueue := wfDataQueueInsert s.freeRxQueue qnode }
    | some skb =>
        if submit ≠ 0 ∧ submit ≠ -eperm then
          { s with
            freeRxQueueSkb := s.freeRxQueueSkb ++ [skb]
            buff := Function.update s.buff qnode none
            freeRxQueue := wfDataQueueInsert s.freeRxQueue qnode }
        else if submit = 0 then { s with urbs := qnode :: s.urbs }
        else s

/-- A frame goes to the tasklet. -/
def receiveFrame (s : RxPipe) (qnode skb : Nat) : RxPipe :=
  let s := { s with rxQueue := s.rxQueue ++ [skb] }
  let s := if s.rxQueue.length ≤ 1 then { s with sched := true } else s
  { s with buff := Function.update s.buff qnode none }

def usbReadPortComplete (richv200 : Bool) (s : RxPipe) (qnode : Nat) (urb : RxUrb) :
    Option RxPipe :=
  match s.buff qnode with
  | none => none
  | some skb =>
      if urb.status = .ok then
        if urb.actualLength < minRxdSize richv200 then
          some (wfUsbReadPort s qnode urb.submit urb.mem)
        else if urb.lenCheck = -1 then some (wfUsbReadPort s qnode urb.submit urb.mem)
        else if urb.frame then
          some (wfUsbReadPort (receiveFrame s qnode skb) qnode urb.submit urb.mem)
        else some (wfUsbReadPort s qnode urb.submit urb.mem)
      else
        some { s with
          freeRxQueueSkb := s.freeRxQueueSkb ++ [skb]
          freeRxQueue := wfDataQueueInsert s.freeRxQueue qnode
          devRemoved := s.devRemoved || urb.status.removes }

/-- The tasklet takes the next buffer, or it is through. -/
def hifTaskletRxDequeue (s : RxPipe) : RxPipe :=
  match s.rxQueue with
  | [] => { s with running := false }
  | skb :: queue =>
      if s.devRemoved then
        { s with rxQueue := queue, freeRxQueueSkb := s.freeRxQueueSkb ++ [skb] }
      else { s with rxQueue := queue, hand := some skb }

/-- The tasklet has handled a buffer, and a node that is free is read. -/
def hifTaskletRxHandled (s : RxPipe) (skb : Nat) (submit : Int) (mem : Nat) : RxPipe :=
  let s := { s with hand := none, freeRxQueueSkb := s.freeRxQueueSkb ++ [skb] }
  match wfDataQueueRemove s.freeRxQueue with
  | (none, _) => s
  | (some qnode, queue) => wfUsbReadPort { s with freeRxQueue := queue } qnode submit mem

/-- One turn of the loop of `wf_hif_queue_enable`. -/
def wfHifQueueEnable (s : RxPipe) (submit : Int) (mem : Nat) : RxPipe :=
  if s.hifTrCtrl then s
  else
    match wfDataQueueRemove s.freeRxQueue with
    | (none, _) => { s with hifTrCtrl := true }
    | (some qnode, queue) => wfUsbReadPort { s with freeRxQueue := queue } qnode submit mem

inductive RxPipeEvent where
  | enable (submit : Int) (mem : Nat)
  | complete (qnode : Nat) (urb : RxUrb)
  | begin
  | dequeue
  | handled (submit : Int) (mem : Nat)
  deriving DecidableEq

def rxPipeStep (richv200 : Bool) (s : RxPipe) : RxPipeEvent → Option RxPipe
  | .enable submit mem => some (wfHifQueueEnable s submit mem)
  | .complete qnode urb =>
      if qnode ∈ s.urbs then
        usbReadPortComplete richv200 { s with urbs := s.urbs.erase qnode } qnode urb
      else some s
  | .begin => some (if s.sched && !s.running then { s with sched := false, running := true } else s)
  | .dequeue => some (if s.running && s.hand.isNone then hifTaskletRxDequeue s else s)
  | .handled submit mem =>
      match s.hand with
      | none => some s
      | some skb => some (hifTaskletRxHandled s skb submit mem)

/-- Behind `wf_data_queue_mngt_init`. -/
def rxPipeStart (mem : Nat) : RxPipe where
  freeRxQueueSkb := List.range (min mem hifQueueAllocSkbNum)
  rxQueue := []
  freeRxQueue := List.range wfRxMaxDataQueueNodeNum
  buff := fun _ => none
  urbs := []
  hand := none
  running := false
  sched := false
  allocCnt := 1
  devRemoved := false
  hifTrCtrl := false
  skbs := min mem hifQueueAllocSkbNum

/-- The URB brings a frame. -/
def RxUrb.Delivers (richv200 : Bool) (urb : RxUrb) : Prop :=
  urb.status = .ok ∧ minRxdSize richv200 ≤ urb.actualLength ∧ urb.lenCheck ≠ -1 ∧
    urb.frame = true

/-! ## What a read does -/

/-- There is a buffer for the node. -/
def HasBuff (s : RxPipe) (qnode : Nat) : Prop := s.buff qnode ≠ none ∨ s.freeRxQueueSkb ≠ []

section Read

variable {s : RxPipe} {qnode : Nat} {submit : Int} {mem : Nat}

theorem fillBuff_none :
    (fillBuff s qnode).buff qnode = none ↔ ¬ HasBuff s qnode := by
  unfold fillBuff HasBuff
  cases buff : s.buff qnode with
  | some skb => simp [buff]
  | none =>
      cases pool : s.freeRxQueueSkb with
      | nil => simp [buff]
      | cons skb free => simp

/-- The four ways of a read. -/
theorem wfUsbReadPort_cases (qnode : Nat) (submit : Int) (mem : Nat)
    (present : s.devRemoved = false) :
    (¬ HasBuff s qnode ∧ ∃ s', (s' = s ∨
        s' = wfHifQueueAllocSkb { s with allocCnt := s.allocCnt + 1 } mem) ∧
      wfUsbReadPort s qnode submit mem =
        { s' with freeRxQueue := wfDataQueueInsert s'.freeRxQueue qnode }) ∨
    (HasBuff s qnode ∧ submit ≠ 0 ∧ submit ≠ -eperm ∧
      ∃ skb, (fillBuff s qnode).buff qnode = some skb ∧
        wfUsbReadPort s qnode submit mem =
          { fillBuff s qnode with
            freeRxQueueSkb := (fillBuff s qnode).freeRxQueueSkb ++ [skb]
            buff := Function.update (fillBuff s qnode).buff qnode none
            freeRxQueue := wfDataQueueInsert (fillBuff s qnode).freeRxQueue qnode }) ∨
    (HasBuff s qnode ∧ submit = 0 ∧
      wfUsbReadPort s qnode submit mem =
        { fillBuff s qnode with urbs := qnode :: (fillBuff s qnode).urbs }) ∨
    (HasBuff s qnode ∧ submit = -eperm ∧
      wfUsbReadPort s qnode submit mem = fillBuff s qnode) := by
  unfold wfUsbReadPort
  rw [if_neg (by simp [present])]
  dsimp only
  cases filled : (fillBuff s qnode).buff qnode with
  | none =>
      have bare := fillBuff_none.1 filled
      have same : fillBuff s qnode = s := by
        simp only [HasBuff, not_or, not_not] at bare
        simp [fillBuff, bare.1, bare.2]
      refine .inl ⟨bare, _, ?_, rfl⟩
      rw [same]
      split_ifs
      · exact .inr rfl
      · exact .inl rfl
  | some skb =>
      have full : HasBuff s qnode := by
        by_contra bare
        simp [fillBuff_none.2 bare] at filled
      refine .inr ?_
      dsimp only
      split_ifs with refused accepted
      · exact .inl ⟨full, refused.1, refused.2, skb, rfl, rfl⟩
      · exact .inr (.inl ⟨full, accepted, rfl⟩)
      · have lost : submit = -eperm := by
          by_contra other
          exact refused ⟨accepted, other⟩
        exact .inr (.inr ⟨full, lost, rfl⟩)

theorem fillBuff_kept (s : RxPipe) (qnode : Nat) : ∃ freeRxQueueSkb buff,
    fillBuff s qnode = { s with freeRxQueueSkb, buff } := by
  unfold fillBuff
  split
  · exact ⟨_, _, rfl⟩
  · exact ⟨s.freeRxQueueSkb, s.buff, rfl⟩

/-- What a read leaves alone. -/
theorem wfUsbReadPort_kept (s : RxPipe) (qnode : Nat) (submit : Int) (mem : Nat) :
    ∃ freeRxQueueSkb freeRxQueue buff urbs allocCnt skbs, wfUsbReadPort s qnode submit mem =
      { s with freeRxQueueSkb, freeRxQueue, buff, urbs, allocCnt, skbs } := by
  by_cases present : s.devRemoved = false
  · obtain ⟨freeRxQueueSkb, buff, filled⟩ := fillBuff_kept s qnode
    rcases wfUsbReadPort_cases qnode submit mem present with
      ⟨-, s', rfl | rfl, read⟩ | ⟨-, -, -, skb, -, read⟩ | ⟨-, -, read⟩ | ⟨-, -, read⟩
    · exact ⟨_, _, _, _, _, _, read⟩
    · exact ⟨_, _, _, _, _, _, read⟩
    · rw [filled] at read
      exact ⟨_, _, _, _, _, _, read⟩
    · rw [filled] at read
      exact ⟨_, _, _, _, _, _, read⟩
    · rw [filled] at read
      exact ⟨_, _, _, _, _, _, read⟩
  · simp only [Bool.not_eq_false] at present
    exact ⟨_, _, _, _, _, _, if_pos present⟩

@[simp] theorem devRemoved_wfUsbReadPort :
    (wfUsbReadPort s qnode submit mem).devRemoved = s.devRemoved := by
  obtain ⟨_, _, _, _, _, _, read⟩ := wfUsbReadPort_kept s qnode submit mem
  rw [read]

@[simp] theorem hifTrCtrl_wfUsbReadPort :
    (wfUsbReadPort s qnode submit mem).hifTrCtrl = s.hifTrCtrl := by
  obtain ⟨_, _, _, _, _, _, read⟩ := wfUsbReadPort_kept s qnode submit mem
  rw [read]

@[simp] theorem rxQueue_wfUsbReadPort :
    (wfUsbReadPort s qnode submit mem).rxQueue = s.rxQueue := by
  obtain ⟨_, _, _, _, _, _, read⟩ := wfUsbReadPort_kept s qnode submit mem
  rw [read]

@[simp] theorem hand_wfUsbReadPort :
    (wfUsbReadPort s qnode submit mem).hand = s.hand := by
  obtain ⟨_, _, _, _, _, _, read⟩ := wfUsbReadPort_kept s qnode submit mem
  rw [read]

/-- A read sends the URB exactly when there is a buffer and the submission is accepted. -/
theorem urbs_wfUsbReadPort (qnode : Nat) (submit : Int) (mem : Nat)
    (present : s.devRemoved = false) :
    (HasBuff s qnode ∧ submit = 0 ∧
        (wfUsbReadPort s qnode submit mem).urbs = qnode :: s.urbs) ∨
      (¬ (HasBuff s qnode ∧ submit = 0) ∧
        (wfUsbReadPort s qnode submit mem).urbs = s.urbs) := by
  obtain ⟨freeRxQueueSkb, buff, filled⟩ := fillBuff_kept s qnode
  rcases wfUsbReadPort_cases qnode submit mem present with
    ⟨bare, s', rfl | rfl, read⟩ | ⟨-, refused, -, skb, -, read⟩ | ⟨full, accepted, read⟩ |
      ⟨-, lost, read⟩
  · exact .inr ⟨fun both => bare both.1, by rw [read]⟩
  · exact .inr ⟨fun both => bare both.1, by rw [read]; rfl⟩
  · exact .inr ⟨fun both => refused both.2, by rw [read, filled]⟩
  · exact .inl ⟨full, accepted, by rw [read, filled]⟩
  · exact .inr ⟨fun both => by simp [both.2, eperm] at lost, by rw [read, filled]⟩

end Read

/-! ## Nodes -/

/-- No node is in two places, apart from those in `loose`, and a node on the bus has a buffer. -/
structure Placed (loose : List Nat) (s : RxPipe) : Prop where
  nodup : (loose ++ s.freeRxQueue ++ s.urbs).Nodup
  busy : ∀ qnode ∈ s.urbs, s.buff qnode ≠ none
  hand : s.hand ≠ none → s.running = true

section Nodes

variable {richv200 : Bool} {s next : RxPipe} {qnode skb : Nat} {urb : RxUrb} {submit : Int}
  {mem : Nat} {event : RxPipeEvent} {loose queue : List Nat}

theorem Placed.absent (placed : Placed [qnode] s) :
    qnode ∉ s.freeRxQueue ∧ qnode ∉ s.urbs ∧ (s.freeRxQueue ++ s.urbs).Nodup := by
  have nodup := placed.nodup
  simpa [and_assoc] using nodup

theorem Placed.park (placed : Placed [qnode] s) :
    (wfDataQueueInsert s.freeRxQueue qnode ++ s.urbs).Nodup := by
  have nodup := placed.nodup
  have moved : (wfDataQueueInsert s.freeRxQueue qnode ++ s.urbs).Perm
      ([qnode] ++ s.freeRxQueue ++ s.urbs) :=
    (List.perm_append_comm).append_right s.urbs
  exact moved.nodup_iff.mpr nodup

theorem Placed.sent (placed : Placed [qnode] s) :
    (s.freeRxQueue ++ qnode :: s.urbs).Nodup := by
  have moved : (s.freeRxQueue ++ qnode :: s.urbs).Perm ([qnode] ++ s.freeRxQueue ++ s.urbs) :=
    List.perm_middle
  exact moved.nodup_iff.mpr placed.nodup

/-- The buffer of a node that is not on the bus is of no account. -/
theorem Placed.busy_update (placed : Placed [qnode] s) (new : Option Nat) :
    ∀ other ∈ s.urbs, Function.update s.buff qnode new other ≠ none := by
  intro other member
  have apart : other ≠ qnode := fun same => placed.absent.2.1 (same ▸ member)
  rw [Function.update_of_ne apart]
  exact placed.busy other member

theorem Placed.fillBuff (placed : Placed [qnode] s) : Placed [qnode] (fillBuff s qnode) := by
  unfold Hif.fillBuff
  split
  · exact { placed with busy := placed.busy_update _ }
  · exact placed

theorem Placed.read (placed : Placed [qnode] s) :
    Placed [] (wfUsbReadPort s qnode submit mem) := by
  by_cases present : s.devRemoved = false
  · have filled := placed.fillBuff
    rcases wfUsbReadPort_cases qnode submit mem present with
      ⟨-, s', rfl | rfl, read⟩ | ⟨-, -, -, skb, -, read⟩ | ⟨full, -, read⟩ | ⟨-, -, read⟩
    · exact read ▸ { placed with nodup := placed.park }
    · rw [read]
      exact { placed with nodup := placed.park }
    · rw [read]
      exact { nodup := filled.park, busy := filled.busy_update none, hand := filled.hand }
    · rw [read]
      refine { nodup := filled.sent, busy := ?_, hand := filled.hand }
      intro other member
      rcases List.mem_cons.mp member with rfl | before
      · exact fillBuff_none.not.2 (not_not.mpr full)
      · exact filled.busy other before
    · rw [read]
      exact { filled with nodup := filled.absent.2.2 }
  · simp only [Bool.not_eq_false] at present
    simp only [wfUsbReadPort, present, if_true]
    exact { placed with nodup := placed.absent.2.2 }

theorem Placed.receiveFrame (placed : Placed [qnode] s) :
    Placed [qnode] (receiveFrame s qnode skb) := by
  have busy := placed.busy_update none
  unfold Hif.receiveFrame
  dsimp only
  split_ifs
  · exact { nodup := placed.nodup, busy, hand := placed.hand }
  · exact { nodup := placed.nodup, busy, hand := placed.hand }

/-- The node of a URB that has ended is in no place. -/
theorem Placed.erase (placed : Placed [] s) (member : qnode ∈ s.urbs) :
    Placed [qnode] { s with urbs := s.urbs.erase qnode } := by
  have moved : ([qnode] ++ s.freeRxQueue ++ s.urbs.erase qnode).Perm
      ([] ++ s.freeRxQueue ++ s.urbs) :=
    (List.perm_middle.symm).trans ((List.perm_cons_erase member).symm.append_left _)
  exact {
    nodup := moved.nodup_iff.mpr placed.nodup
    busy := fun other inside => placed.busy other (List.mem_of_mem_erase inside)
    hand := placed.hand }

/-- The three ways of a URB that has ended. -/
theorem complete_cases (richv200 : Bool) (urb : RxUrb) (buff : s.buff qnode = some skb) :
    (urb.Delivers richv200 ∧ usbReadPortComplete richv200 s qnode urb =
      some (wfUsbReadPort (receiveFrame s qnode skb) qnode urb.submit urb.mem)) ∨
    (urb.status = .ok ∧ ¬ urb.Delivers richv200 ∧ usbReadPortComplete richv200 s qnode urb =
      some (wfUsbReadPort s qnode urb.submit urb.mem)) ∨
    (urb.status ≠ .ok ∧ usbReadPortComplete richv200 s qnode urb = some { s with
      freeRxQueueSkb := s.freeRxQueueSkb ++ [skb]
      freeRxQueue := wfDataQueueInsert s.freeRxQueue qnode
      devRemoved := s.devRemoved || urb.status.removes }) := by
  simp only [usbReadPortComplete, buff, RxUrb.Delivers]
  split_ifs with well short bad frame
  · exact .inr (.inl ⟨well, by omega, rfl⟩)
  · exact .inr (.inl ⟨well, by simp [bad], rfl⟩)
  · exact .inl ⟨⟨well, by omega, bad, frame⟩, rfl⟩
  · exact .inr (.inl ⟨well, by simp [frame], rfl⟩)
  · exact .inr (.inr ⟨well, rfl⟩)

theorem Placed.complete (placed : Placed [qnode] s) (full : s.buff qnode ≠ none) :
    ∃ next, usbReadPortComplete richv200 s qnode urb = some next ∧ Placed [] next := by
  obtain ⟨skb, buff⟩ := Option.ne_none_iff_exists'.mp full
  rcases complete_cases richv200 urb buff with
    ⟨-, ends⟩ | ⟨-, -, ends⟩ | ⟨-, ends⟩
  · exact ⟨_, ends, placed.receiveFrame.read⟩
  · exact ⟨_, ends, placed.read⟩
  · exact ⟨_, ends, { placed with nodup := placed.park }⟩

/-- A node that leaves `free_rx_queue` is read. -/
theorem Placed.readFree (placed : Placed [] s) (head : s.freeRxQueue = qnode :: queue) :
    Placed [] (wfUsbReadPort { s with freeRxQueue := queue } qnode submit mem) := by
  have taken : Placed [qnode] { s with freeRxQueue := queue } :=
    { nodup := by simpa [head] using placed.nodup, busy := placed.busy, hand := placed.hand }
  exact taken.read

theorem wfHifQueueEnable_nil (waits : s.hifTrCtrl = false) (head : s.freeRxQueue = []) :
    wfHifQueueEnable s submit mem = { s with hifTrCtrl := true } := by
  simp [wfHifQueueEnable, waits, head, wfDataQueueRemove]

theorem wfHifQueueEnable_cons (waits : s.hifTrCtrl = false)
    (head : s.freeRxQueue = qnode :: queue) :
    wfHifQueueEnable s submit mem =
      wfUsbReadPort { s with freeRxQueue := queue } qnode submit mem := by
  simp [wfHifQueueEnable, waits, head, wfDataQueueRemove]

/-- The buffer that the tasklet has handled is in the pool again. -/
def giveBack (s : RxPipe) (skb : Nat) : RxPipe :=
  { s with hand := none, freeRxQueueSkb := s.freeRxQueueSkb ++ [skb] }

theorem hifTaskletRxHandled_nil (head : s.freeRxQueue = []) :
    hifTaskletRxHandled s skb submit mem = giveBack s skb := by
  simp [hifTaskletRxHandled, head, wfDataQueueRemove, giveBack]

theorem hifTaskletRxHandled_cons (head : s.freeRxQueue = qnode :: queue) :
    hifTaskletRxHandled s skb submit mem =
      wfUsbReadPort { giveBack s skb with freeRxQueue := queue } qnode submit mem := by
  simp [hifTaskletRxHandled, head, wfDataQueueRemove, giveBack]

theorem Placed.giveBack (placed : Placed [] s) : Placed [] (giveBack s skb) :=
  { nodup := placed.nodup, busy := placed.busy, hand := by simp [Hif.giveBack] }

theorem Placed.enable (placed : Placed [] s) : Placed [] (wfHifQueueEnable s submit mem) := by
  cases waits : s.hifTrCtrl with
  | true => simpa [wfHifQueueEnable, waits] using placed
  | false =>
      cases head : s.freeRxQueue with
      | nil =>
          rw [wfHifQueueEnable_nil waits head]
          exact { placed with }
      | cons qnode queue =>
          rw [wfHifQueueEnable_cons waits head]
          exact placed.readFree head

theorem Placed.handled (placed : Placed [] s) :
    Placed [] (hifTaskletRxHandled s skb submit mem) := by
  cases head : s.freeRxQueue with
  | nil =>
      rw [hifTaskletRxHandled_nil head]
      exact placed.giveBack
  | cons qnode queue =>
      rw [hifTaskletRxHandled_cons head]
      exact placed.giveBack.readFree head

theorem Placed.dequeue (placed : Placed [] s) (running : s.running = true)
    (free : s.hand = none) : Placed [] (hifTaskletRxDequeue s) := by
  unfold hifTaskletRxDequeue
  split
  · exact { nodup := placed.nodup, busy := placed.busy, hand := by simp [free] }
  · split_ifs
    · exact { placed with }
    · exact { nodup := placed.nodup, busy := placed.busy, hand := fun _ => running }

/-- Every step returns: no URB ends whose node has no buffer. -/
theorem Placed.step (placed : Placed [] s) (richv200 : Bool) (event : RxPipeEvent) :
    ∃ next, rxPipeStep richv200 s event = some next ∧ Placed [] next := by
  cases event with
  | enable submit mem => exact ⟨_, rfl, placed.enable⟩
  | complete qnode urb =>
      by_cases member : qnode ∈ s.urbs
      · simp only [rxPipeStep, member, if_true]
        exact (placed.erase member).complete (placed.busy qnode member)
      · exact ⟨s, by simp [rxPipeStep, member], placed⟩
  | begin =>
      refine ⟨_, rfl, ?_⟩
      split_ifs
      · exact { nodup := placed.nodup, busy := placed.busy, hand := fun _ => rfl }
      · exact placed
  | dequeue =>
      refine ⟨_, rfl, ?_⟩
      split_ifs with idle
      · simp only [Bool.and_eq_true, Option.isNone_iff_eq_none] at idle
        exact placed.dequeue idle.1 idle.2
      · exact placed
  | handled submit mem =>
      cases hand : s.hand with
      | none => exact ⟨s, by simp [rxPipeStep, hand], placed⟩
      | some skb =>
          exact ⟨hifTaskletRxHandled s skb submit mem, by simp only [rxPipeStep, hand],
            placed.handled⟩

theorem Placed.after (placed : Placed [] s) (steps : rxPipeStep richv200 s event = some next) :
    Placed [] next := by
  obtain ⟨next', steps', placed'⟩ := placed.step richv200 event
  rw [steps, Option.some.injEq] at steps'
  exact steps' ▸ placed'

theorem devRemoved_receiveFrame : (receiveFrame s qnode skb).devRemoved = s.devRemoved := by
  simp only [receiveFrame]
  split_ifs <;> rfl

theorem devRemoved_enable : (wfHifQueueEnable s submit mem).devRemoved = s.devRemoved := by
  cases waits : s.hifTrCtrl with
  | true => simp [wfHifQueueEnable, waits]
  | false =>
      cases head : s.freeRxQueue with
      | nil => rw [wfHifQueueEnable_nil waits head]
      | cons qnode queue => rw [wfHifQueueEnable_cons waits head, devRemoved_wfUsbReadPort]

theorem devRemoved_handled :
    (hifTaskletRxHandled s skb submit mem).devRemoved = s.devRemoved := by
  cases head : s.freeRxQueue with
  | nil => rw [hifTaskletRxHandled_nil head, giveBack]
  | cons qnode queue => rw [hifTaskletRxHandled_cons head, devRemoved_wfUsbReadPort, giveBack]

theorem devRemoved_dequeue : (hifTaskletRxDequeue s).devRemoved = s.devRemoved := by
  unfold hifTaskletRxDequeue
  split
  · rfl
  · split_ifs <;> rfl

theorem devRemoved_complete (ends : usbReadPortComplete richv200 s qnode urb = some next)
    (present : next.devRemoved = false) : s.devRemoved = false := by
  cases buff : s.buff qnode with
  | none => simp [usbReadPortComplete, buff] at ends
  | some skb =>
      rcases complete_cases richv200 urb buff with ⟨-, way⟩ | ⟨-, -, way⟩ | ⟨-, way⟩
      all_goals
        rw [way, Option.some.injEq] at ends
        subst ends
      · rwa [devRemoved_wfUsbReadPort, devRemoved_receiveFrame] at present
      · rwa [devRemoved_wfUsbReadPort] at present
      · exact (Bool.or_eq_false_iff.mp present).1

/-- A device that has been removed does not come back. -/
theorem step_present (steps : rxPipeStep richv200 s event = some next)
    (present : next.devRemoved = false) : s.devRemoved = false := by
  cases event with
  | enable submit mem =>
      simp only [rxPipeStep, Option.some.injEq] at steps
      rwa [← steps, devRemoved_enable] at present
  | begin =>
      simp only [rxPipeStep, Option.some.injEq] at steps
      subst steps
      split_ifs at present <;> exact present
  | dequeue =>
      simp only [rxPipeStep, Option.some.injEq] at steps
      subst steps
      split_ifs at present
      · rwa [devRemoved_dequeue] at present
      · exact present
  | handled submit mem =>
      cases hand : s.hand with
      | none =>
          simp only [rxPipeStep, hand, Option.some.injEq] at steps
          exact steps ▸ present
      | some skb =>
          simp only [rxPipeStep, hand, Option.some.injEq] at steps
          rwa [← steps, devRemoved_handled] at present
  | complete qnode urb =>
      simp only [rxPipeStep] at steps
      split_ifs at steps
      · have before := devRemoved_complete steps present
        exact before
      · simp only [Option.some.injEq] at steps
        exact steps ▸ present

theorem rxPipeStart_placed : Placed [] (rxPipeStart mem) := by
  constructor
  · simp [rxPipeStart, List.nodup_range]
  · simp [rxPipeStart]
  · simp [rxPipeStart]

end Nodes

end Smartchip.Hif
