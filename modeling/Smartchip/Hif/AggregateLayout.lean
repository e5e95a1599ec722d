import Smartchip.Hif.Aggregate

/-!
# What an aggregate contains

Every packet is in one aggregate, the aggregates have the packets in the order of the queue,
and each packet stands where the chip looks for it.
-/

namespace Smartchip.Hif

open Smartchip.Foundation

/-- `TX_AGG_BUFF_SIZE`. -/
def txAggBuffSize : Nat := 32 * 1024

/-- The bytes of the first descriptor that `wf_tx_agg_num_fill` writes. -/
def Filled (richv200 : Bool) (i : Nat) : Prop :=
  i = aggNumAt richv200 ∨ i = chksumAt richv200 ∨ i = chksumAt richv200 + 1

structure Faithful (richv200 : Bool) (agg : Aggregate) : Prop where
  qsel : ∀ qnode ∈ agg.packets, ∀ other ∈ agg.packets, qnode.qsel = other.qsel
  first : ∀ qnode rest, agg.packets = qnode :: rest → ∀ i < qnode.realSize,
    ¬ Filled richv200 i → some (agg.buff i) = qnode.buff[i]?
  behind : ∀ front qnode back, agg.packets = front ++ qnode :: back → front ≠ [] →
    agg.buff.read (extent (DataQueueNode.alignSize richv200) front) qnode.realSize =
      qnode.buff
  number : (agg.buff (aggNumAt richv200)).toNat = agg.packets.length
  realSize : agg.realSize = extent (DataQueueNode.alignSize richv200) agg.packets
  fits : agg.realSize ≤ txAggBuffSize ∧ wfRnd512 (wfRnd4 agg.realSize) ≤ txAggBuffSize

/-- A packet with a descriptor, whose pages can be counted in 8 bits. -/
structure Sized (richv200 : Bool) (qnode : DataQueueNode) : Prop where
  descriptor : txdescSize richv200 ≤ qnode.realSize
  small : qnode.realSize ≤ 32620
  pages : qnode.pgNum = pgNumOf qnode.realSize
  number : 1 ≤ qnode.aggNum.toNat

/-! ## Sizes -/

section Sizes

variable {richv200 : Bool} {qnode : DataQueueNode} {packets : List DataQueueNode}

theorem Sized.alignSize_eq (sized : Sized richv200 qnode) :
    qnode.alignSize richv200 =
      txdescSize richv200 + (qnode.realSize - txdescSize richv200 + 7) / 8 * 8 := by
  have low := sized.descriptor
  have high := sized.small
  unfold DataQueueNode.alignSize alignSize
  cases richv200 <;> simp only [txdescSize, Bool.false_eq_true, if_false, if_true] at low ⊢ <;>
    omega

theorem Sized.realSize_le (sized : Sized richv200 qnode) :
    qnode.realSize ≤ qnode.alignSize richv200 := by
  have low := sized.descriptor
  rw [sized.alignSize_eq]
  omega

theorem Sized.alignSize_le (sized : Sized richv200 qnode) :
    qnode.alignSize richv200 + 13 ≤ 128 * qnode.pgNum.toNat := by
  have low := sized.descriptor
  have high := sized.small
  have pages : qnode.pgNum.toNat = (qnode.realSize + 20 + 127) / 128 := by
    rw [sized.pages, pgNumOf, UInt8.toNat_ofNat']
    omega
  rw [sized.alignSize_eq, pages]
  omega

theorem Sized.alignSize_pos (sized : Sized richv200 qnode) : 0 < qnode.alignSize richv200 := by
  have low := sized.descriptor
  have high := sized.realSize_le
  cases richv200 <;> simp only [txdescSize, Bool.false_eq_true, if_false, if_true] at low <;>
    omega

theorem extent_alignSize_le (sized : ∀ qnode ∈ packets, Sized richv200 qnode)
    (full : packets ≠ []) :
    extent (DataQueueNode.alignSize richv200) packets + 13 ≤
      128 * (packets.map fun qnode => qnode.pgNum.toNat).sum := by
  induction packets with
  | nil => exact absurd rfl full
  | cons qnode rest ih =>
      have first := (sized qnode (by simp)).alignSize_le
      cases rest with
      | nil => simpa using first
      | cons other rest =>
          have others := ih (fun qnode member => sized qnode (by simp [member])) (by simp)
          rw [extent_cons, List.map_cons, List.sum_cons]
          omega

end Sizes

/-! ## The worker's state -/

structure LaidOut (richv200 : Bool) (s : TxWork) : Prop extends Counted richv200 s where
  qsel : ∀ qnode ∈ s.packets, qnode.qsel = s.aggQnode.qsel
  sized : ∀ qnode ∈ s.packets, Sized richv200 qnode
  laid : Laid DataQueueNode.buff (DataQueueNode.alignSize richv200) s.txAggBuffer 0 s.packets
  pages : s.packets ≠ [] →
    (s.packets.map fun qnode => qnode.pgNum.toNat).sum = s.aggQnode.pgNum.toNat
  few : s.packets.length ≤ 255
  maxPageNum : s.maxPageNum ≤ 243
  maxAggNum : s.maxAggNum ≤ 254
  written : ∀ agg ∈ s.written, Faithful richv200 agg

section Steps

variable {richv200 : Bool} {s next : TxWork} {qnode : DataQueueNode} {reads : ChipReads}

theorem freeTxPageMax_le (hwQueue : HwQueue) : freeTxPageMax hwQueue ≤ 243 := by
  cases hwQueue <;> simp [freeTxPageMax]

theorem LaidOut.update (laid : LaidOut richv200 s) (number : 1 ≤ qnode.aggNum.toNat)
    (updated : wfSdioUpdateTxbufSize s qnode reads = some next) : LaidOut richv200 next := by
  obtain ⟨sd, sd', -, -, rfl⟩ := update_spec updated
  have cap := freeTxPageMax_le qnode.hwQueue
  have byte := sd'.sdioTxOqtFreeSpace.toNat_lt
  exact { laid with
    maxPageNum := by
      dsimp only
      omega
    maxAggNum := by
      dsimp only
      omega }

theorem wfTxAggNumFill_before {mem : Mem} {aggNum : UInt8} {i : Nat}
    (apart : ¬ Filled richv200 i) : wfTxAggNumFill richv200 aggNum mem i = mem i := by
  unfold Filled at apart
  have outside : ∀ (m : Mem) (addr : Nat) (bytes : List UInt8),
      i < addr ∨ addr + bytes.length ≤ i → m.write addr bytes i = m i := by
    intro m addr bytes far
    rcases far with before | after
    · exact Mem.write_before m bytes before
    · exact Mem.write_after m after
  cases richv200 with
  | true =>
      simp only [aggNumAt, chksumAt, if_true] at apart
      simp only [wfTxAggNumFill, wfTxdescChksum, aggNumAt, if_true]
      rw [outside _ _ _ (by simp only [length_le16]; omega),
        outside _ _ _ (by simp only [List.length_singleton]; omega)]
  | false =>
      simp only [aggNumAt, chksumAt, Bool.false_eq_true, if_false] at apart
      simp only [wfTxAggNumFill, wfTxdescChksum, aggNumAt, Bool.false_eq_true, if_false]
      rw [outside _ _ _ (by simp only [length_le16]; omega),
        outside _ _ _ (by simp only [List.length_cons, List.length_nil]; omega),
        outside _ _ _ (by simp only [List.length_singleton]; omega)]

theorem wfTxAggNumFill_at {mem : Mem} {aggNum : UInt8} :
    wfTxAggNumFill richv200 aggNum mem (aggNumAt richv200) = aggNum := by
  have here : ∀ addr, mem.write addr [aggNum] addr = aggNum := by
    intro addr
    simp [Mem.write]
  cases richv200 with
  | true =>
      simp only [wfTxAggNumFill, wfTxdescChksum, aggNumAt, if_true]
      rw [Mem.write_before _ _ (by omega), here]
  | false =>
      simp only [wfTxAggNumFill, wfTxdescChksum, aggNumAt, Bool.false_eq_true, if_false]
      rw [Mem.write_before _ _ (by omega), Mem.write_before _ _ (by omega), here]

theorem Filled.lt {i : Nat} (filled : Filled richv200 i) : i < txdescSize richv200 := by
  unfold Filled aggNumAt chksumAt at filled
  cases richv200 <;> simp only [Bool.false_eq_true, if_false, if_true] at filled <;>
    simp only [txdescSize, Bool.false_eq_true, if_false, if_true] <;> omega

/-- Behind the first packet nothing is filled in. -/
theorem read_fill {mem : Mem} {aggNum : UInt8} {start n : Nat}
    (behind : txdescSize richv200 ≤ start) :
    (wfTxAggNumFill richv200 aggNum mem).read start n = mem.read start n := by
  apply List.map_congr_left
  intro i _
  apply wfTxAggNumFill_before
  intro filled
  have inside := filled.lt
  omega

theorem LaidOut.faithful (laid : LaidOut richv200 s) (full : s.packets ≠ []) :
    Faithful richv200 {
      packets := s.packets
      buff := wfTxAggNumFill richv200 (UInt8.ofNat s.aggNum) s.txAggBuffer
      realSize := s.pktLen
      aggNum := UInt8.ofNat s.aggNum
      charged := sendPgNum s
      credit := s.sd.credit s.aggQnode.hwQueue
      oqt := s.sd.sdioTxOqtFreeSpace } where
  qsel := fun qnode member other second =>
    (laid.qsel qnode member).trans (laid.qsel other second).symm
  first := by
    intro qnode rest split i inside apart
    have whole : s.packets = [] ++ qnode :: rest := split
    have stands := laid.laid.at whole
    have byte := Mem.getElem?_read s.txAggBuffer (0 + 0) inside
    dsimp only
    rw [wfTxAggNumFill_before apart]
    rw [extent_nil] at stands
    rw [DataQueueNode.realSize, stands, Nat.zero_add] at byte
    exact byte.symm
  behind := by
    intro front qnode back split others
    have whole : s.packets = front ++ qnode :: back := split
    have stands := laid.laid.at whole
    rw [Nat.zero_add] at stands
    obtain ⟨head, tail, rfl⟩ := List.exists_cons_of_ne_nil others
    have sized := laid.sized head (by simp [whole])
    have low := sized.descriptor
    have long := sized.realSize_le
    refine Eq.trans (read_fill ?_) stands
    rw [extent_cons]
    omega
  number := by
    have few := laid.few
    dsimp only
    rw [wfTxAggNumFill_at, UInt8.toNat_ofNat', laid.count]
    omega
  realSize := laid.pktLen
  fits := by
    have bound := extent_alignSize_le laid.sized full
    have byte := s.aggQnode.pgNum.toNat_lt
    rw [laid.pages full, ← laid.pktLen] at bound
    simp only [wfRnd512, wfRnd4, txAggBuffSize]
    omega

theorem LaidOut.send (laid : LaidOut richv200 s) (full : s.packets ≠ []) :
    LaidOut richv200 (aggUpdateSendCore richv200 s) where
  count := rfl
  pktLen := rfl
  occupied := by simp [aggUpdateSendCore]
  qsel := by simp [aggUpdateSendCore]
  sized := by simp [aggUpdateSendCore]
  laid := trivial
  pages := fun none => absurd rfl none
  few := by simp [aggUpdateSendCore]
  maxPageNum := laid.maxPageNum
  maxAggNum := laid.maxAggNum
  written := by
    intro agg member
    simp only [aggUpdateSendCore, List.mem_append, List.mem_singleton] at member
    rcases member with before | rfl
    · exact laid.written agg before
    · exact laid.faithful full

theorem LaidOut.open (laid : LaidOut richv200 s) (empty : s.packets = [])
    (sized : Sized richv200 qnode) : LaidOut richv200 (openAgg richv200 s qnode) where
  toCounted := Counted.copy ⟨laid.count, laid.pktLen, laid.occupied⟩ sized.alignSize_pos
  qsel := by simp [openAgg, copyPacket, empty]
  sized := by simpa [openAgg, copyPacket, empty] using sized
  laid := by
    have written := laid.laid.snoc (x := qnode) fun qnode member =>
      (laid.sized qnode member).realSize_le
    rwa [Nat.zero_add, ← laid.pktLen] at written
  pages := by simp [openAgg, copyPacket, empty]
  few := by simp [openAgg, copyPacket, empty]
  maxPageNum := laid.maxPageNum
  maxAggNum := laid.maxAggNum
  written := laid.written

theorem LaidOut.join (laid : LaidOut richv200 s) (full : s.packets ≠ [])
    (stays : flushes s qnode = false) (sized : Sized richv200 qnode) :
    LaidOut richv200 (joinAgg richv200 s qnode) := by
  have nonzero : s.aggNum ≠ 0 := by simpa [laid.count] using full
  obtain ⟨room, qsel, fewer, -⟩ := not_flushes stays nonzero
  have cap := laid.maxPageNum
  have most := laid.maxAggNum
  have counted := laid.count
  have whole : s.aggQnode.pgNum.toNat + qnode.pgNum.toNat < 256 := by
    unfold wfRnd4 at room
    omega
  constructor
  · exact Counted.copy ⟨laid.count, laid.pktLen, laid.occupied⟩ sized.alignSize_pos
  · intro other member
    simp only [joinAgg, copyPacket, List.mem_append, List.mem_singleton] at member ⊢
    rcases member with before | rfl
    · exact laid.qsel other before
    · exact qsel.symm
  · intro other member
    simp only [joinAgg, copyPacket, List.mem_append, List.mem_singleton] at member
    rcases member with before | rfl
    · exact laid.sized other before
    · exact sized
  · have written := laid.laid.snoc (x := qnode) fun qnode member =>
      (laid.sized qnode member).realSize_le
    rwa [Nat.zero_add, ← laid.pktLen] at written
  · intro _
    simp only [joinAgg, copyPacket, List.map_append, List.sum_append, List.map_cons,
      List.map_nil, List.sum_cons, List.sum_nil, Nat.add_zero, laid.pages full,
      UInt8.toNat_add]
    omega
  · simp only [joinAgg, copyPacket, List.length_append, List.length_singleton]
    omega
  · exact laid.maxPageNum
  · exact laid.maxAggNum
  · exact laid.written

end Steps

/-! ## Runs -/

section Runs

variable {richv200 : Bool} {s next final : TxWork} {qnode : DataQueueNode}
  {first second reads : ChipReads} {event : TxWorkEvent} {events : List TxWorkEvent}

theorem LaidOut.updateFirst (laid : LaidOut richv200 s) (number : 1 ≤ qnode.aggNum.toNat)
    (updated : updateFirst s qnode reads = some next) : LaidOut richv200 next := by
  unfold Hif.updateFirst at updated
  split_ifs at updated
  · exact laid.update number updated
  · simp only [Option.some.injEq] at updated
    exact updated ▸ laid

theorem LaidOut.takeFrame (laid : LaidOut richv200 s) (sized : Sized richv200 qnode)
    (taken : takeFrame richv200 s qnode first second = some next) : LaidOut richv200 next := by
  obtain ⟨s', updated, ways⟩ := takeFrame_cases taken
  have before := laid.updateFirst sized.number updated
  rcases ways with ⟨sent, s'', again, rfl⟩ | ⟨-, none, rfl⟩ | ⟨stays, begun, rfl⟩
  · have full : s'.packets ≠ [] := fun empty =>
      flushes_begun sent (before.packets_nil.1 empty)
    have after := (before.send full).update sized.number again
    apply after.open _ sized
    obtain ⟨sd, maxPageNum, maxAggNum, rfl⟩ := update_kept again
    rfl
  · exact before.open (before.packets_nil.2 none) sized
  · exact before.join (fun empty => begun (before.packets_nil.1 empty)) stays sized

theorem LaidOut.drained (laid : LaidOut richv200 s) :
    LaidOut richv200 (txQueueDrained richv200 s) := by
  have reset : ∀ s, LaidOut richv200 s → LaidOut richv200
      { s with aggNum := 0, pktLen := 0, maxPageNum := 0, maxAggNum := 0, packets := [] } := by
    intro s laid
    exact { laid with
      count := rfl
      pktLen := rfl
      occupied := by simp
      qsel := by simp
      sized := by simp
      laid := trivial
      pages := fun none => absurd rfl none
      few := by simp
      maxPageNum := by simp
      maxAggNum := by simp }
  rw [laid.toCounted.drained]
  split_ifs with empty
  · exact reset s laid
  · exact reset _ (laid.send empty)

theorem LaidOut.step (laid : LaidOut richv200 s)
    (sized : ∀ qnode ∈ framesOf richv200 [event], Sized richv200 qnode)
    (steps : txWorkStep richv200 s event = some next) : LaidOut richv200 next := by
  rcases txWorkStep_cases steps with
    ⟨rfl, rfl⟩ | ⟨qnode, first, second, rfl, ⟨frame, taken⟩ | ⟨-, rfl⟩⟩
  · exact laid.drained
  · exact laid.takeFrame (sized qnode (by simp [framesOf, frame])) taken
  · exact laid

theorem LaidOut.run (laid : LaidOut richv200 s)
    (sized : ∀ qnode ∈ framesOf richv200 events, Sized richv200 qnode)
    (reached : run (txWorkStep richv200) s events = some final) : LaidOut richv200 final := by
  induction events generalizing s with
  | nil =>
      cases reached
      exact laid
  | cons event events ih =>
      rw [run_cons, Option.bind_eq_some_iff] at reached
      obtain ⟨next, steps, rest⟩ := reached
      rw [framesOf_cons] at sized
      have here := laid.step (fun qnode member => sized qnode (by simp [member])) steps
      exact ih here (fun qnode member => sized qnode (by simp [member])) rest

theorem txWorkStart_laidOut (sd : HifSdio) : LaidOut richv200 (txWorkStart sd) := by
  constructor
  case toCounted => exact txWorkStart_counted sd
  all_goals simp [txWorkStart, Laid]

/-- Each packet that the worker has taken is in one aggregate, in the order of the queue, and
stands where the chip looks for it. -/
theorem tx_aggregates_faithful (richv200 : Bool) (sd : HifSdio) (events : List TxWorkEvent)
    (final : TxWork) (sized : ∀ qnode ∈ framesOf richv200 events, Sized richv200 qnode)
    (returned : run (txWorkStep richv200) (txWorkStart sd) (events ++ [.drained]) =
      some final) :
    final.written.flatMap Aggregate.packets = framesOf richv200 events ∧
      ∀ agg ∈ final.written, Faithful richv200 agg := by
  refine ⟨sent_in_order (fun qnode member => (sized qnode member).alignSize_pos) returned, ?_⟩
  rw [run_append, Option.bind_eq_some_iff] at returned
  obtain ⟨s, reached, last⟩ := returned
  cases last
  exact ((txWorkStart_laidOut sd).run sized reached).drained.written

end Runs

/-- A chip with free pages on every queue. -/
def roomySdio : HifSdio := ⟨100, 100, 100, 100, 20⟩

def noReads : ChipReads := ⟨[], []⟩

/-- A packet of queue 2 with a descriptor and four bytes, of type FRAME. -/
def shortFrame (etherType : UInt16) : DataQueueNode :=
  ⟨3 :: List.replicate 23 0, 2, 1, 1, 0, etherType, false⟩

theorem shortFrame_sized (etherType : UInt16) : Sized true (shortFrame etherType) := by
  constructor <;> simp [shortFrame, DataQueueNode.realSize, txdescSize, pgNumOf]

def twoFrames : List TxWorkEvent :=
  [.dequeue (shortFrame 0x0800) noReads noReads, .dequeue (shortFrame 0x0800) noReads noReads]

theorem tx_aggregates_faithful_two :
    ∃ final, run (txWorkStep true) (txWorkStart roomySdio) (twoFrames ++ [.drained]) =
        some final ∧
      final.written.flatMap Aggregate.packets = framesOf true twoFrames ∧
      ∀ agg ∈ final.written, Faithful true agg := by
  have returns : (run (txWorkStep true) (txWorkStart roomySdio)
      (twoFrames ++ [.drained])).isSome = true := by decide +kernel
  obtain ⟨final, returned⟩ := Option.isSome_iff_exists.mp returns
  refine ⟨final, returned, tx_aggregates_faithful true roomySdio twoFrames final ?_ returned⟩
  have frames : framesOf true twoFrames = [shortFrame 0x0800, shortFrame 0x0800] := by decide
  intro qnode member
  simp only [frames, List.mem_cons, List.not_mem_nil, or_false, or_self] at member
  exact member ▸ shortFrame_sized 0x0800

/-- A packet that goes alone is written whatever its size is. -/
theorem single_written {richv200 : Bool} {sd : HifSdio} {qnode : DataQueueNode}
    (frame : isFrame richv200 qnode = true)
    (pages : wfSdioTxFlowFreePgCheck sd qnode.hwQueue qnode.pgNum = true)
    (number : wfSdioTxFlowAggNumCheck sd qnode.aggNum = true)
    (sized : 0 < qnode.alignSize richv200) :
    ∃ final, run (txWorkStep richv200) (txWorkStart sd)
        [.dequeue qnode noReads noReads, .drained] = some final ∧
      ∃ agg ∈ final.written, agg.realSize = qnode.alignSize richv200 := by
  have returns : (wfSdioUpdateTxbufSize (txWorkStart sd) qnode noReads).isSome = true := by
    simp [wfSdioUpdateTxbufSize, freePages, pages, freeAgg, number, txWorkStart]
  obtain ⟨s, updated⟩ := Option.isSome_iff_exists.mp returns
  obtain ⟨sd', maxPageNum, maxAggNum, rfl⟩ := update_kept updated
  have taken : takeFrame richv200 (txWorkStart sd) qnode noReads noReads =
      some (openAgg richv200 { txWorkStart sd with sd := sd', maxPageNum, maxAggNum } qnode) := by
    have none : (txWorkStart sd).aggNum = 0 := rfl
    simp [takeFrame, updateFirst, updated, flushes, none]
  refine ⟨txQueueDrained richv200
    (openAgg richv200 { txWorkStart sd with sd := sd', maxPageNum, maxAggNum } qnode), ?_, ?_⟩
  · simp [run, txWorkStep, frame, taken]
  · simp [txQueueDrained, openAgg, copyPacket, txWorkStart, sized, aggUpdateSendCore]

def paddedFrame (padding : Nat) (pgNum : UInt8) : DataQueueNode :=
  ⟨3 :: List.replicate padding 0, 2, 1, pgNum, 0, 0x0800, false⟩

theorem alignSize_paddedFrame (padding : Nat) (pgNum : UInt8) :
    (paddedFrame padding pgNum).alignSize true = alignSize true (padding + 1) := by
  simp [DataQueueNode.alignSize, DataQueueNode.realSize, paddedFrame]

/-- A packet that is larger than the buffer. -/
theorem tx_aggregate_too_long :
    ∃ final, run (txWorkStep true) (txWorkStart roomySdio)
        [.dequeue (paddedFrame 39999 (pgNumOf 40000)) noReads noReads, .drained] =
          some final ∧
      ∃ agg ∈ final.written, ¬ agg.realSize ≤ txAggBuffSize := by
  have long : (paddedFrame 39999 (pgNumOf 40000)).alignSize true = 40004 :=
    alignSize_paddedFrame 39999 (pgNumOf 40000)
  have frame : isFrame true (paddedFrame 39999 (pgNumOf 40000)) = true := rfl
  obtain ⟨final, returned, agg, member, size⟩ := single_written frame
    (show wfSdioTxFlowFreePgCheck roomySdio .low (pgNumOf 40000) = true by decide)
    (show wfSdioTxFlowAggNumCheck roomySdio 1 = true by decide) (by rw [long]; decide)
  refine ⟨final, returned, agg, member, ?_⟩
  rw [size, long]
  decide

end Smartchip.Hif
