import Smartchip.Foundation.Blocks
import Smartchip.Foundation.Run

/-!
# The aggregating worker of the SDIO bus

`wf_tx_work_agg` of `os/linux/hif/hif_queue.c` and the flow control of `sdio.c`.  Packets of
one queue are copied into `tx_agg_buffer` one behind the other until one does not go with
them; then the aggregate is written, and its pages and packets are taken off what the chip
had told to be free.
-/

namespace Smartchip.Hif

open Smartchip.Foundation

/-! ## Nodes -/

/-- A node of `tx_queue`; `real_size` is the length of `buff`. -/
structure DataQueueNode where
  buff : List UInt8
  addr : UInt32
  aggNum : UInt8
  pgNum : UInt8
  qsel : UInt8
  etherType : UInt16
  icmpPkt : Bool
  deriving DecidableEq

/-- `pg_num` of `wf_tx_queue_insert`. -/
def pgNumOf (buffLen : Nat) : UInt8 := UInt8.ofNat ((buffLen + 20 + 127) / 128)

def pktIsAggDisable (qnode : DataQueueNode) : Bool :=
  if qnode.etherType = 0x0806 then true
  else if qnode.etherType = 0x86dd then true
  else if qnode.etherType = 0x888e then true
  else if qnode.etherType = 0x8864 then true
  else if qnode.etherType = 0x0800 && qnode.icmpPkt then true
  else false

def wfRnd4 (x : Nat) : Nat := (x + 3) / 4 * 4

def wfRnd512 (x : Nat) : Nat := (x + 511) / 512 * 512

/-! ## The chip -/

inductive HwQueue where
  | high
  | mid
  | low
  deriving DecidableEq

/-- `sdio_get_fifoaddr_by_que_Index`; the index of the commands has fifo 3 or 7. -/
def fifoIdOf (queIndex : UInt8) : Nat :=
  if queIndex = 2 ∨ queIndex = 3 then 6
  else if queIndex = 1 then 5
  else if queIndex = 5 ∨ queIndex = 4 ∨ queIndex = 0 ∨ queIndex = 6 then 1
  else if queIndex = 9 then 7
  else 0

def sdioGetHwQueueByFifoId (fifoId : Nat) : HwQueue :=
  if fifoId = 1 ∨ fifoId = 2 ∨ fifoId = 4 then .high
  else if fifoId = 5 then .mid
  else .low

def DataQueueNode.hwQueue (qnode : DataQueueNode) : HwQueue :=
  sdioGetHwQueueByFifoId (fifoIdOf qnode.addr.toUInt8)

/-- The free pages and `SdioTxOQTFreeSpace`, as last read from the chip and charged. -/
structure HifSdio where
  txFifoPpgNum : Int
  txFifoLpgNum : Int
  txFifoMpgNum : Int
  txFifoHpgNum : Int
  sdioTxOqtFreeSpace : UInt8

def HifSdio.pgNum (sd : HifSdio) : HwQueue → Int
  | .high => sd.txFifoHpgNum
  | .mid => sd.txFifoMpgNum
  | .low => sd.txFifoLpgNum

def HifSdio.setPgNum (sd : HifSdio) (hwQueue : HwQueue) (num : Int) : HifSdio :=
  match hwQueue with
  | .high => { sd with txFifoHpgNum := num }
  | .mid => { sd with txFifoMpgNum := num }
  | .low => { sd with txFifoLpgNum := num }

/-- The public pages and those of a queue. -/
def HifSdio.credit (sd : HifSdio) (hwQueue : HwQueue) : Int :=
  sd.txFifoPpgNum + sd.pgNum hwQueue

/-- The registers that are read while the worker waits: pairs of public pages and pages of
the queue, and then values of `WL_REG_AC_OQT_FREEPG`. -/
structure ChipReads where
  pages : List (Nat × Nat)
  oqt : List UInt8

/-! ## Flow control -/

def wfSdioTxFlowFreePgCheck (sd : HifSdio) (hwQueue : HwQueue) (pgNum : UInt8) : Bool :=
  let remain := sd.pgNum hwQueue - pgNum.toNat
  if remain < 0 then 0 < sd.txFifoPpgNum + remain else true

/-- The first pair that has more pages than are needed ends the wait. -/
def wfSdioTxWaitFreePg (sd : HifSdio) (hwQueue : HwQueue) (needPgNum : UInt8) :
    List (Nat × Nat) → Option HifSdio
  | [] => none
  | (pub, own) :: reads =>
      let sd := { sd.setPgNum hwQueue own with txFifoPpgNum := pub }
      if needPgNum.toNat < own + pub then some sd
      else wfSdioTxWaitFreePg sd hwQueue needPgNum reads

def wfSdioTxFlowAggNumCheck (sd : HifSdio) (aggNum : UInt8) : Bool :=
  aggNum ≤ sd.sdioTxOqtFreeSpace

def wfSdioTxWaitFreeAgg (sd : HifSdio) (needAggNum : UInt8) : List UInt8 → Option HifSdio
  | [] => if sd.sdioTxOqtFreeSpace < needAggNum then none else some sd
  | value :: reads =>
      if sd.sdioTxOqtFreeSpace < needAggNum then
        wfSdioTxWaitFreeAgg { sd with sdioTxOqtFreeSpace := value } needAggNum reads
      else some sd

def freePages (sd : HifSdio) (qnode : DataQueueNode) (reads : List (Nat × Nat)) :
    Option HifSdio :=
  if wfSdioTxFlowFreePgCheck sd qnode.hwQueue qnode.pgNum then some sd
  else wfSdioTxWaitFreePg sd qnode.hwQueue qnode.pgNum reads

def freeAgg (sd : HifSdio) (qnode : DataQueueNode) (reads : List UInt8) : Option HifSdio :=
  if wfSdioTxFlowAggNumCheck sd qnode.aggNum then some sd
  else wfSdioTxWaitFreeAgg sd qnode.aggNum reads

/-- The most pages that an aggregate of a queue may have. -/
def freeTxPageMax : HwQueue → Int
  | .high => 243
  | .mid => 233
  | .low => 233

def wfSdioTxFlowFreePgCtl (sd : HifSdio) (hwQueue : HwQueue) (pgNum : UInt8) : HifSdio :=
  if (pgNum.toNat : Int) < sd.pgNum hwQueue then
    sd.setPgNum hwQueue (sd.pgNum hwQueue - pgNum.toNat)
  else
    { sd.setPgNum hwQueue 0 with
      txFifoPpgNum := sd.txFifoPpgNum - (pgNum.toNat - sd.pgNum hwQueue) }

def wfSdioTxFlowAggNumCtl (sd : HifSdio) (aggNum : UInt8) : HifSdio :=
  { sd with sdioTxOqtFreeSpace := sd.sdioTxOqtFreeSpace - aggNum }

/-! ## The buffer -/

/-- `TXDESC_SIZE`, with `CONFIG_RICHV200` and without. -/
def txdescSize (richv200 : Bool) : Nat := if richv200 then 20 else 40

/-- The sizes are of 32 bits without a sign. -/
def alignSize (richv200 : Bool) (realSize : Nat) : Nat :=
  (txdescSize richv200 +
    (realSize + 2 ^ 32 - txdescSize richv200 + 7) % 2 ^ 32 / 8 * 8) % 2 ^ 32

def DataQueueNode.realSize (qnode : DataQueueNode) : Nat := qnode.buff.length

def DataQueueNode.alignSize (richv200 : Bool) (qnode : DataQueueNode) : Nat :=
  Hif.alignSize richv200 qnode.realSize

/-- Where the number of packets stands in a descriptor, and where its checksum. -/
def aggNumAt (richv200 : Bool) : Nat := if richv200 then 15 else 13

def chksumAt (richv200 : Bool) : Nat := if richv200 then 18 else 28

/-- The exclusive or of the first words. -/
def chksumOf (mem : Mem) (words : Nat) : UInt16 :=
  (List.range words).foldl (fun chksum i => chksum ^^^ mem.readLe16 (2 * i)) 0

def wfTxdescChksum (richv200 : Bool) (mem : Mem) : Mem :=
  if richv200 then mem.write 18 (le16 (chksumOf mem 9))
  else
    let mem := mem.write 28 [0, 0]
    mem.write 28 (le16 (chksumOf mem 16))

def wfTxAggNumFill (richv200 : Bool) (aggNum : UInt8) (mem : Mem) : Mem :=
  wfTxdescChksum richv200 (mem.write (aggNumAt richv200) [aggNum])

/-! ## The worker -/

/-- What is handed to `hif_write`.  `packets`, for the specification, are the packets that
were copied, `credit` and `oqt` what the chip was known to have free, and `charged` the pages
that are taken off. -/
structure Aggregate where
  packets : List DataQueueNode
  buff : Mem
  realSize : Nat
  aggNum : UInt8
  charged : UInt8
  credit : Int
  oqt : UInt8

/-- The variables of `wf_tx_work_agg`, the counters and the buffer.  `packets` are those of
the open aggregate, and `written` the aggregates so far. -/
structure TxWork where
  sd : HifSdio
  aggQnode : DataQueueNode
  aggNum : Nat
  pktLen : Nat
  maxPageNum : Int
  maxAggNum : Int
  txAggBuffer : Mem
  packets : List DataQueueNode
  written : List Aggregate

def wfSdioUpdateTxbufSize (s : TxWork) (qnode : DataQueueNode) (reads : ChipReads) :
    Option TxWork := do
  let sd ← freePages s.sd qnode reads.pages
  let sd ← freeAgg sd qnode reads.oqt
  some {
    s with
    sd
    maxPageNum := min (sd.credit qnode.hwQueue) (freeTxPageMax qnode.hwQueue)
    maxAggNum := sd.sdioTxOqtFreeSpace.toNat - qnode.aggNum.toNat }

def sendPgNum (s : TxWork) : UInt8 := UInt8.ofNat (wfRnd4 s.aggQnode.pgNum.toNat)

/-- `agg_update_send_core`; the caller begins a new aggregate. -/
def aggUpdateSendCore (richv200 : Bool) (s : TxWork) : TxWork :=
  let buff := wfTxAggNumFill richv200 (UInt8.ofNat s.aggNum) s.txAggBuffer
  let sd := wfSdioTxFlowFreePgCtl s.sd s.aggQnode.hwQueue (sendPgNum s)
  { s with
    sd := wfSdioTxFlowAggNumCtl sd (UInt8.ofNat s.aggNum)
    aggNum := 0
    pktLen := 0
    txAggBuffer := buff
    packets := []
    written := s.written ++ [{
      packets := s.packets
      buff
      realSize := s.pktLen
      aggNum := UInt8.ofNat s.aggNum
      charged := sendPgNum s
      credit := s.sd.credit s.aggQnode.hwQueue
      oqt := s.sd.sdioTxOqtFreeSpace }] }

/-- The packet is copied behind the others. -/
def copyPacket (richv200 : Bool) (s : TxWork) (qnode : DataQueueNode) : TxWork :=
  { s with
    aggNum := s.aggNum + 1
    pktLen := s.pktLen + qnode.alignSize richv200
    txAggBuffer := s.txAggBuffer.write s.pktLen qnode.buff
    packets := s.packets ++ [qnode] }

/-- The packet begins an aggregate. -/
def openAgg (richv200 : Bool) (s : TxWork) (qnode : DataQueueNode) : TxWork :=
  copyPacket richv200 { s with aggQnode := qnode } qnode

/-- The packet goes into the open aggregate. -/
def joinAgg (richv200 : Bool) (s : TxWork) (qnode : DataQueueNode) : TxWork :=
  copyPacket richv200
    { s with aggQnode := { s.aggQnode with pgNum := s.aggQnode.pgNum + qnode.pgNum } } qnode

/-- The packet does not go with those of the open aggregate. -/
def flushes (s : TxWork) (qnode : DataQueueNode) : Bool :=
  s.aggNum ≠ 0 &&
    (s.maxPageNum < wfRnd4 (s.aggQnode.pgNum.toNat + qnode.pgNum.toNat) ||
      s.aggQnode.qsel ≠ qnode.qsel || s.maxAggNum < s.aggNum || pktIsAggDisable qnode)

/-- `wf_sdio_update_txbuf_size` in front of the decision. -/
def updateFirst (s : TxWork) (qnode : DataQueueNode) (reads : ChipReads) : Option TxWork :=
  if s.aggNum = 0 ∨ s.aggQnode.qsel ≠ qnode.qsel then wfSdioUpdateTxbufSize s qnode reads
  else some s

/-- One turn of the loop for a packet of type FRAME. -/
def takeFrame (richv200 : Bool) (s : TxWork) (qnode : DataQueueNode)
    (first second : ChipReads) : Option TxWork := do
  let s ← updateFirst s qnode first
  if flushes s qnode then
    let s ← wfSdioUpdateTxbufSize (aggUpdateSendCore richv200 s) qnode second
    some (openAgg richv200 s qnode)
  else if s.aggNum = 0 then some (openAgg richv200 s qnode)
  else some (joinAgg richv200 s qnode)

/-- With `CONFIG_RICHV200` only packets of this type are aggregated. -/
def isFrame (richv200 : Bool) (qnode : DataQueueNode) : Bool :=
  !richv200 || qnode.buff.getD 0 0 &&& 0x03 = 0x03

/-- Behind the loop.  The variables are those of one call of the worker. -/
def txQueueDrained (richv200 : Bool) (s : TxWork) : TxWork :=
  let s := if 0 < s.pktLen ∧ 0 < s.aggNum then aggUpdateSendCore richv200 s else s
  { s with aggNum := 0, pktLen := 0, maxPageNum := 0, maxAggNum := 0, packets := [] }

/-- A packet is dequeued, or there is none and the worker returns. -/
inductive TxWorkEvent where
  | dequeue (qnode : DataQueueNode) (first second : ChipReads)
  | drained

/-- A packet of another type is written as it is. -/
def txWorkStep (richv200 : Bool) (s : TxWork) : TxWorkEvent → Option TxWork
  | .dequeue qnode first second =>
      if isFrame richv200 qnode then takeFrame richv200 s qnode first second else some s
  | .drained => some (txQueueDrained richv200 s)

def noNode : DataQueueNode := ⟨[], 0, 0, 0, 0, 0, false⟩

/-- Before any packet, with what was read from the chip when it was started. -/
def txWorkStart (sd : HifSdio) : TxWork where
  sd := sd
  aggQnode := noNode
  aggNum := 0
  pktLen := 0
  maxPageNum := 0
  maxAggNum := 0
  txAggBuffer := fun _ => 0
  packets := []
  written := []

/-- The packets of type FRAME that were dequeued. -/
def framesOf (richv200 : Bool) (events : List TxWorkEvent) : List DataQueueNode :=
  events.filterMap fun event =>
    match event with
    | .dequeue qnode _ _ => if isFrame richv200 qnode then some qnode else none
    | .drained => none

/-- The packets that were copied, in the order of the copies. -/
def copied (s : TxWork) : List DataQueueNode :=
  s.written.flatMap Aggregate.packets ++ s.packets

/-! ## One turn of the loop -/

section Turn

variable {richv200 : Bool} {s next final : TxWork} {qnode : DataQueueNode}
  {first second reads : ChipReads} {event : TxWorkEvent} {events : List TxWorkEvent}

theorem update_spec (updated : wfSdioUpdateTxbufSize s qnode reads = some next) :
    ∃ sd sd', freePages s.sd qnode reads.pages = some sd ∧
      freeAgg sd qnode reads.oqt = some sd' ∧
      next = {
        s with
        sd := sd'
        maxPageNum := min (sd'.credit qnode.hwQueue) (freeTxPageMax qnode.hwQueue)
        maxAggNum := sd'.sdioTxOqtFreeSpace.toNat - qnode.aggNum.toNat } := by
  unfold wfSdioUpdateTxbufSize at updated
  cases pages : freePages s.sd qnode reads.pages with
  | none => simp [pages] at updated
  | some sd =>
      cases number : freeAgg sd qnode reads.oqt with
      | none => simp [pages, number] at updated
      | some sd' =>
          simp only [pages, number, Option.bind_eq_bind, Option.bind_some,
            Option.some.injEq] at updated
          exact ⟨sd, sd', rfl, number, updated.symm⟩

/-- What the flow control leaves alone. -/
theorem update_kept (updated : wfSdioUpdateTxbufSize s qnode reads = some next) :
    ∃ sd maxPageNum maxAggNum, next = { s with sd, maxPageNum, maxAggNum } := by
  obtain ⟨sd, sd', -, -, rfl⟩ := update_spec updated
  exact ⟨sd', _, _, rfl⟩

theorem updateFirst_kept (updated : updateFirst s qnode reads = some next) :
    ∃ sd maxPageNum maxAggNum, next = { s with sd, maxPageNum, maxAggNum } := by
  unfold updateFirst at updated
  split_ifs at updated
  · exact update_kept updated
  · simp only [Option.some.injEq] at updated
    exact ⟨s.sd, s.maxPageNum, s.maxAggNum, updated.symm⟩

theorem updateFirst_aggNum (updated : updateFirst s qnode reads = some next) :
    next.aggNum = s.aggNum := by
  obtain ⟨sd, maxPageNum, maxAggNum, rfl⟩ := updateFirst_kept updated
  rfl

/-- A packet of the queue that is aggregated needs no look at the counters. -/
theorem updateFirst_same (begun : s.aggNum ≠ 0) (same : s.aggQnode.qsel = qnode.qsel) :
    updateFirst s qnode reads = some s := by
  simp [updateFirst, begun, same]

theorem not_flushes (stays : flushes s qnode = false) (begun : s.aggNum ≠ 0) :
    (wfRnd4 (s.aggQnode.pgNum.toNat + qnode.pgNum.toNat) : Int) ≤ s.maxPageNum ∧
      s.aggQnode.qsel = qnode.qsel ∧ (s.aggNum : Int) ≤ s.maxAggNum ∧
      pktIsAggDisable qnode = false := by
  simpa [flushes, begun, and_assoc] using stays

/-- The three ways of a packet: it goes behind an aggregate that is sent, it begins one, or it
goes into the open one. -/
theorem takeFrame_cases (taken : takeFrame richv200 s qnode first second = some next) :
    ∃ s', updateFirst s qnode first = some s' ∧
      ((flushes s' qnode = true ∧ ∃ s'',
          wfSdioUpdateTxbufSize (aggUpdateSendCore richv200 s') qnode second = some s'' ∧
          next = openAgg richv200 s'' qnode) ∨
        (flushes s' qnode = false ∧ s'.aggNum = 0 ∧ next = openAgg richv200 s' qnode) ∨
        (flushes s' qnode = false ∧ s'.aggNum ≠ 0 ∧ next = joinAgg richv200 s' qnode)) := by
  unfold takeFrame at taken
  cases updated : updateFirst s qnode first with
  | none => simp [updated] at taken
  | some s' =>
      simp only [updated, Option.bind_eq_bind, Option.bind_some] at taken
      refine ⟨s', rfl, ?_⟩
      split_ifs at taken with sent begun
      · rw [Option.bind_eq_some_iff] at taken
        obtain ⟨s'', again, rest⟩ := taken
        simp only [Option.some.injEq] at rest
        exact .inl ⟨sent, s'', again, rest.symm⟩
      · simp only [Option.some.injEq] at taken
        exact .inr (.inl ⟨by simpa using sent, begun, taken.symm⟩)
      · simp only [Option.some.injEq] at taken
        exact .inr (.inr ⟨by simpa using sent, begun, taken.symm⟩)

/-- The ways of the worker: there is no packet, or there is one of type FRAME, or of another
type. -/
theorem txWorkStep_cases (steps : txWorkStep richv200 s event = some next) :
    (event = .drained ∧ next = txQueueDrained richv200 s) ∨
      ∃ qnode first second, event = .dequeue qnode first second ∧
        ((isFrame richv200 qnode = true ∧
            takeFrame richv200 s qnode first second = some next) ∨
          (isFrame richv200 qnode = false ∧ next = s)) := by
  cases event with
  | drained =>
      simp only [txWorkStep, Option.some.injEq] at steps
      exact .inl ⟨rfl, steps.symm⟩
  | dequeue qnode first second =>
      refine .inr ⟨qnode, first, second, rfl, ?_⟩
      cases frame : isFrame richv200 qnode with
      | true => simpa [txWorkStep, frame] using steps
      | false => simpa [txWorkStep, frame, eq_comm] using steps

theorem flushes_begun (sent : flushes s qnode = true) : s.aggNum ≠ 0 := by
  simp only [flushes, Bool.and_eq_true, decide_eq_true_eq] at sent
  exact sent.1

end Turn

/-! ## No packet is left out -/

/-- The variables of the loop count the open aggregate. -/
structure Counted (richv200 : Bool) (s : TxWork) : Prop where
  count : s.aggNum = s.packets.length
  pktLen : s.pktLen = extent (DataQueueNode.alignSize richv200) s.packets
  occupied : ∀ qnode ∈ s.packets, 0 < qnode.alignSize richv200

section Copies

variable {richv200 : Bool} {s next final : TxWork} {qnode : DataQueueNode}
  {first second reads : ChipReads} {event : TxWorkEvent} {events : List TxWorkEvent}

theorem Counted.packets_nil (counted : Counted richv200 s) : s.packets = [] ↔ s.aggNum = 0 := by
  rw [counted.count, List.length_eq_zero_iff]

theorem Counted.copy (counted : Counted richv200 s) (occupied : 0 < qnode.alignSize richv200) :
    Counted richv200 (copyPacket richv200 s qnode) := by
  constructor
  · simp [copyPacket, counted.count]
  · simp [copyPacket, counted.pktLen]
  · intro other member
    simp only [copyPacket, List.mem_append, List.mem_singleton] at member
    rcases member with before | rfl
    · exact counted.occupied other before
    · exact occupied

theorem Counted.takeFrame (counted : Counted richv200 s)
    (occupied : 0 < qnode.alignSize richv200)
    (taken : takeFrame richv200 s qnode first second = some next) : Counted richv200 next := by
  obtain ⟨s', updated, ways⟩ := takeFrame_cases taken
  obtain ⟨sd, maxPageNum, maxAggNum, rfl⟩ := updateFirst_kept updated
  have before : Counted richv200 { s with sd, maxPageNum, maxAggNum } :=
    ⟨counted.count, counted.pktLen, counted.occupied⟩
  rcases ways with ⟨-, s'', again, rfl⟩ | ⟨-, -, rfl⟩ | ⟨-, -, rfl⟩
  · obtain ⟨sd', maxPageNum', maxAggNum', rfl⟩ := update_kept again
    apply Counted.copy _ occupied
    constructor <;> simp [aggUpdateSendCore]
  · exact Counted.copy ⟨before.count, before.pktLen, before.occupied⟩ occupied
  · exact Counted.copy ⟨before.count, before.pktLen, before.occupied⟩ occupied

theorem copied_takeFrame (taken : Hif.takeFrame richv200 s qnode first second = some next) :
    copied next = copied s ++ [qnode] := by
  obtain ⟨s', updated, ways⟩ := takeFrame_cases taken
  obtain ⟨sd, maxPageNum, maxAggNum, rfl⟩ := updateFirst_kept updated
  rcases ways with ⟨-, s'', again, rfl⟩ | ⟨-, none, rfl⟩ | ⟨-, -, rfl⟩
  · obtain ⟨sd', maxPageNum', maxAggNum', rfl⟩ := update_kept again
    simp [copied, openAgg, copyPacket, aggUpdateSendCore]
  · simp [copied, openAgg, copyPacket]
  · simp [copied, joinAgg, copyPacket]

/-- An aggregate that is open is not empty, and it is sent. -/
theorem Counted.drained (counted : Counted richv200 s) :
    txQueueDrained richv200 s =
      { if s.packets = [] then s else aggUpdateSendCore richv200 s with
        aggNum := 0, pktLen := 0, maxPageNum := 0, maxAggNum := 0, packets := [] } := by
  unfold txQueueDrained
  cases packets : s.packets with
  | nil =>
      have none := counted.packets_nil.1 packets
      simp [none]
  | cons qnode rest =>
      have here := counted.occupied qnode (by simp [packets])
      have long : 0 < s.pktLen := by
        rw [counted.pktLen, packets, extent_cons]
        omega
      have some : 0 < s.aggNum := by simp [counted.count, packets]
      simp [long, some]

theorem Counted.drained_counted (counted : Counted richv200 s) :
    Counted richv200 (txQueueDrained richv200 s) := by
  rw [counted.drained]
  constructor <;> simp

theorem Counted.copied_drained (counted : Counted richv200 s) :
    copied (txQueueDrained richv200 s) = copied s := by
  rw [counted.drained]
  split_ifs with empty
  · simp [copied, empty]
  · simp [copied, aggUpdateSendCore]

theorem framesOf_cons :
    framesOf richv200 (event :: events) =
      framesOf richv200 [event] ++ framesOf richv200 events := by
  simp only [framesOf, ← List.filterMap_append, List.singleton_append]

theorem mem_framesOf (member : event ∈ events)
    (here : qnode ∈ framesOf richv200 [event]) : qnode ∈ framesOf richv200 events := by
  simp only [framesOf, List.mem_filterMap, List.mem_singleton, exists_eq_left] at here ⊢
  exact ⟨event, member, here⟩

theorem Counted.step (counted : Counted richv200 s)
    (occupied : ∀ qnode ∈ framesOf richv200 [event], 0 < qnode.alignSize richv200)
    (steps : txWorkStep richv200 s event = some next) :
    Counted richv200 next ∧ copied next = copied s ++ framesOf richv200 [event] := by
  rcases txWorkStep_cases steps with
    ⟨rfl, rfl⟩ | ⟨qnode, first, second, rfl, ⟨frame, taken⟩ | ⟨other, rfl⟩⟩
  · refine ⟨counted.drained_counted, ?_⟩
    simp [counted.copied_drained, framesOf]
  · simp only [framesOf, List.filterMap_cons, frame, if_true, List.filterMap_nil,
      List.mem_singleton] at occupied ⊢
    exact ⟨counted.takeFrame (occupied qnode rfl) taken, copied_takeFrame taken⟩
  · exact ⟨counted, by simp [framesOf, other]⟩

theorem Counted.run (counted : Counted richv200 s)
    (occupied : ∀ qnode ∈ framesOf richv200 events, 0 < qnode.alignSize richv200)
    (reached : run (txWorkStep richv200) s events = some final) :
    Counted richv200 final ∧ copied final = copied s ++ framesOf richv200 events := by
  induction events generalizing s with
  | nil =>
      cases reached
      exact ⟨counted, by simp [framesOf]⟩
  | cons event events ih =>
      rw [run_cons, Option.bind_eq_some_iff] at reached
      obtain ⟨next, steps, rest⟩ := reached
      rw [framesOf_cons] at occupied ⊢
      have here := counted.step (fun qnode member => occupied qnode (by simp [member])) steps
      have there := ih here.1 (fun qnode member => occupied qnode (by simp [member])) rest
      exact ⟨there.1, by rw [there.2, here.2, List.append_assoc]⟩

theorem txWorkStart_counted (sd : HifSdio) : Counted richv200 (txWorkStart sd) := by
  constructor <;> simp [txWorkStart]

/-- Behind the loop of the last call every packet has been sent, in the order of the queue. -/
theorem sent_in_order {sd : HifSdio}
    (occupied : ∀ qnode ∈ framesOf richv200 events, 0 < qnode.alignSize richv200)
    (returned : run (txWorkStep richv200) (txWorkStart sd) (events ++ [.drained]) =
      some final) :
    final.written.flatMap Aggregate.packets = framesOf richv200 events := by
  rw [run_append, Option.bind_eq_some_iff] at returned
  obtain ⟨s, reached, last⟩ := returned
  obtain ⟨counted, order⟩ := (txWorkStart_counted sd).run occupied reached
  cases last
  have same := counted.copied_drained
  rw [order] at same
  simpa [copied, txWorkStart, txQueueDrained] using same

end Copies

end Smartchip.Hif
