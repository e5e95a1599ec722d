import Smartchip.Hif.AggregateLayout

/-!
# The pages and packets that an aggregate is charged

The chip's counters cover a packet before it is taken, and an aggregate of several packets
stays within them.  One packet is charged with its pages rounded up, which were not asked
for, and the counters may have been read again for a packet of another queue.
-/

namespace Smartchip.Hif

open Smartchip.Foundation

structure HifSdio.NonNeg (sd : HifSdio) : Prop where
  ppg : 0 ≤ sd.txFifoPpgNum
  lpg : 0 ≤ sd.txFifoLpgNum
  mpg : 0 ≤ sd.txFifoMpgNum
  hpg : 0 ≤ sd.txFifoHpgNum

/-- What the aggregate was charged was there. -/
def Aggregate.Covered (agg : Aggregate) : Prop :=
  (agg.charged.toNat : Int) ≤ agg.credit ∧ agg.packets.length ≤ agg.oqt.toNat

def Covered (s : TxWork) : Prop := ∀ agg ∈ s.written, agg.Covered

/-- The first pair of page counts that ends the wait for a packet. -/
def pagesRead (qnode : DataQueueNode) (reads : List (Nat × Nat)) : Option (Nat × Nat) :=
  reads.find? fun read => qnode.pgNum.toNat < read.2 + read.1

/-- The counters are read again for this packet before the open aggregate is sent. -/
def ReadsAgain (s : TxWork) (qnode : DataQueueNode) : Prop :=
  s.aggQnode.qsel ≠ qnode.qsel ∧
    wfSdioTxFlowFreePgCheck s.sd qnode.hwQueue qnode.pgNum = false

/-- The rounded pages of a packet that is alone in the open aggregate are there, and those of
an aggregate for which the counters are read again are in what is read. -/
def CreditCovers (richv200 : Bool) (s : TxWork) : TxWorkEvent → Prop
  | .dequeue qnode first _ => isFrame richv200 qnode = true → s.packets ≠ [] →
      (ReadsAgain s qnode → ∀ pub own, pagesRead qnode first.pages = some (pub, own) →
        ((sendPgNum s).toNat : Int) ≤
          pub + if s.aggQnode.hwQueue = qnode.hwQueue then (own : Int)
            else s.sd.pgNum s.aggQnode.hwQueue) ∧
      (¬ ReadsAgain s qnode → s.packets.length = 1 →
        ((sendPgNum s).toNat : Int) ≤ s.sd.credit s.aggQnode.hwQueue)
  | .drained => 0 < s.pktLen → s.packets.length = 1 →
      ((sendPgNum s).toNat : Int) ≤ s.sd.credit s.aggQnode.hwQueue

/-! ## The counters -/

section Counters

variable {sd sd' : HifSdio} {qnode : DataQueueNode} {hwQueue other : HwQueue}

@[simp] theorem HifSdio.pgNum_setPgNum (num : Int) :
    (sd.setPgNum hwQueue num).pgNum other = if other = hwQueue then num else sd.pgNum other := by
  cases hwQueue <;> cases other <;> rfl

@[simp] theorem HifSdio.oqt_setPgNum (num : Int) :
    (sd.setPgNum hwQueue num).sdioTxOqtFreeSpace = sd.sdioTxOqtFreeSpace := by
  cases hwQueue <;> rfl

theorem HifSdio.NonNeg.pgNum (nonneg : sd.NonNeg) (hwQueue : HwQueue) :
    0 ≤ sd.pgNum hwQueue := by
  cases hwQueue
  · exact nonneg.hpg
  · exact nonneg.mpg
  · exact nonneg.lpg

theorem HifSdio.NonNeg.set (nonneg : sd.NonNeg) (hwQueue : HwQueue) {num pub : Int}
    (own : 0 ≤ num) (free : 0 ≤ pub) :
    HifSdio.NonNeg { sd.setPgNum hwQueue num with txFifoPpgNum := pub } := by
  cases hwQueue
  · exact ⟨free, nonneg.lpg, nonneg.mpg, own⟩
  · exact ⟨free, nonneg.lpg, own, nonneg.hpg⟩
  · exact ⟨free, own, nonneg.mpg, nonneg.hpg⟩

/-- Pages that are there can be charged. -/
theorem HifSdio.NonNeg.charge (nonneg : sd.NonNeg) {pgNum : UInt8}
    (covered : (pgNum.toNat : Int) ≤ sd.credit hwQueue) :
    (wfSdioTxFlowFreePgCtl sd hwQueue pgNum).NonNeg := by
  have own := nonneg.pgNum hwQueue
  have free := nonneg.ppg
  unfold HifSdio.credit at covered
  unfold wfSdioTxFlowFreePgCtl
  split_ifs with enough
  · have left : 0 ≤ sd.pgNum hwQueue - pgNum.toNat := by omega
    have set := nonneg.set hwQueue left free
    cases hwQueue <;> exact set
  · exact nonneg.set hwQueue (by omega) (by omega)

/-- The last pair that is read is the one that the counters have then. -/
theorem waitFreePg_spec {needPgNum : UInt8} {reads : List (Nat × Nat)}
    (waited : wfSdioTxWaitFreePg sd hwQueue needPgNum reads = some sd') :
    ∃ pub own, reads.find? (fun read => needPgNum.toNat < read.2 + read.1) = some (pub, own) ∧
      sd' = { sd.setPgNum hwQueue own with txFifoPpgNum := pub } := by
  induction reads generalizing sd with
  | nil => simp [wfSdioTxWaitFreePg] at waited
  | cons read reads ih =>
      obtain ⟨pub, own⟩ := read
      simp only [wfSdioTxWaitFreePg] at waited
      split_ifs at waited with enough
      · simp only [Option.some.injEq] at waited
        exact ⟨pub, own, by simp [enough], waited.symm⟩
      · obtain ⟨pub', own', found, rfl⟩ := ih waited
        refine ⟨pub', own', by simpa [enough] using found, ?_⟩
        cases hwQueue <;> rfl

theorem waitFreeAgg_spec {needAggNum : UInt8} {reads : List UInt8}
    (waited : wfSdioTxWaitFreeAgg sd needAggNum reads = some sd') :
    ∃ oqt, sd' = { sd with sdioTxOqtFreeSpace := oqt } ∧ needAggNum ≤ oqt := by
  induction reads generalizing sd with
  | nil =>
      simp only [wfSdioTxWaitFreeAgg] at waited
      split_ifs at waited with few
      simp only [Option.some.injEq] at waited
      exact ⟨sd.sdioTxOqtFreeSpace, waited.symm, UInt8.not_lt.mp few⟩
  | cons value reads ih =>
      simp only [wfSdioTxWaitFreeAgg] at waited
      split_ifs at waited with few
      · obtain ⟨oqt, rfl, enough⟩ := ih waited
        exact ⟨oqt, rfl, enough⟩
      · simp only [Option.some.injEq] at waited
        exact ⟨sd.sdioTxOqtFreeSpace, waited.symm, UInt8.not_lt.mp few⟩

theorem freePages_spec {reads : List (Nat × Nat)}
    (paged : freePages sd qnode reads = some sd') :
    (wfSdioTxFlowFreePgCheck sd qnode.hwQueue qnode.pgNum = true ∧ sd' = sd) ∨
      (wfSdioTxFlowFreePgCheck sd qnode.hwQueue qnode.pgNum = false ∧
        ∃ pub own, pagesRead qnode reads = some (pub, own) ∧
          sd' = { sd.setPgNum qnode.hwQueue own with txFifoPpgNum := pub }) := by
  unfold freePages at paged
  split_ifs at paged with checked
  · simp only [Option.some.injEq] at paged
    exact .inl ⟨checked, paged.symm⟩
  · exact .inr ⟨by simpa using checked, waitFreePg_spec paged⟩

/-- The room for packets is there then, and it is no less than it was. -/
theorem freeAgg_spec {reads : List UInt8} (numbered : freeAgg sd qnode reads = some sd') :
    ∃ oqt, sd' = { sd with sdioTxOqtFreeSpace := oqt } ∧ qnode.aggNum ≤ oqt ∧
      sd.sdioTxOqtFreeSpace ≤ oqt := by
  unfold freeAgg at numbered
  split_ifs at numbered with checked
  · simp only [Option.some.injEq] at numbered
    simp only [wfSdioTxFlowAggNumCheck, decide_eq_true_eq] at checked
    exact ⟨sd.sdioTxOqtFreeSpace, numbered.symm, checked, UInt8.le_refl _⟩
  · obtain ⟨oqt, rfl, enough⟩ := waitFreeAgg_spec numbered
    simp only [wfSdioTxFlowAggNumCheck, decide_eq_true_eq, UInt8.not_le] at checked
    exact ⟨oqt, rfl, enough, UInt8.le_trans (UInt8.le_of_lt checked) enough⟩

end Counters

/-! ## The open aggregate -/

/-- What `wf_sdio_update_txbuf_size` and the decision leave of the limits. -/
structure Limited (s : TxWork) : Prop where
  count : s.aggNum = s.packets.length
  maxPageNum : s.maxPageNum ≤ 243
  pages : s.packets ≠ [] → s.maxPageNum ≤ s.sd.credit s.aggQnode.hwQueue
  joined : 1 < s.packets.length → (wfRnd4 s.aggQnode.pgNum.toNat : Int) ≤ s.maxPageNum
  number : s.packets.length ≤ s.sd.sdioTxOqtFreeSpace.toNat
  maxAggNum : s.packets ≠ [] → s.maxAggNum < s.sd.sdioTxOqtFreeSpace.toNat

section Turn

variable {richv200 : Bool} {s s' next : TxWork} {qnode : DataQueueNode}
  {first second reads : ChipReads} {event : TxWorkEvent}

theorem sendPgNum_le : (sendPgNum s).toNat ≤ wfRnd4 s.aggQnode.pgNum.toNat := by
  simp only [sendPgNum, UInt8.toNat_ofNat']
  exact Nat.mod_le _ _

theorem Limited.packets_nil (limited : Limited s) : s.packets = [] ↔ s.aggNum = 0 := by
  rw [limited.count, List.length_eq_zero_iff]

/-- The counters of the open aggregate's queue and the room for packets, when the flow
control has looked at a packet. -/
theorem update_credit (updated : wfSdioUpdateTxbufSize s qnode reads = some s')
    (hwQueue : HwQueue) :
    s.sd.sdioTxOqtFreeSpace ≤ s'.sd.sdioTxOqtFreeSpace ∧
      ((wfSdioTxFlowFreePgCheck s.sd qnode.hwQueue qnode.pgNum = true ∧
          s'.sd.credit hwQueue = s.sd.credit hwQueue) ∨
        (wfSdioTxFlowFreePgCheck s.sd qnode.hwQueue qnode.pgNum = false ∧
          ∃ pub own, pagesRead qnode reads.pages = some (pub, own) ∧
            s'.sd.credit hwQueue =
              pub + if hwQueue = qnode.hwQueue then (own : Int) else s.sd.pgNum hwQueue)) := by
  obtain ⟨sd, sd', paged, numbered, rfl⟩ := update_spec updated
  obtain ⟨oqt, rfl, -, grows⟩ := freeAgg_spec numbered
  rcases freePages_spec paged with ⟨checked, rfl⟩ | ⟨refused, pub, own, found, rfl⟩
  · exact ⟨grows, .inl ⟨checked, rfl⟩⟩
  · rw [HifSdio.oqt_setPgNum] at grows
    refine ⟨grows, .inr ⟨refused, pub, own, found, ?_⟩⟩
    rw [← HifSdio.pgNum_setPgNum]
    cases hwQueue <;> rfl

theorem updateFirst_credit (updated : updateFirst s qnode first = some s')
    (begun : s.aggNum ≠ 0) (hwQueue : HwQueue) :
    s.sd.sdioTxOqtFreeSpace ≤ s'.sd.sdioTxOqtFreeSpace ∧
      ((¬ ReadsAgain s qnode ∧ s'.sd.credit hwQueue = s.sd.credit hwQueue) ∨
        (ReadsAgain s qnode ∧ ∃ pub own, pagesRead qnode first.pages = some (pub, own) ∧
          s'.sd.credit hwQueue =
            pub + if hwQueue = qnode.hwQueue then (own : Int) else s.sd.pgNum hwQueue)) := by
  by_cases same : s.aggQnode.qsel = qnode.qsel
  · rw [updateFirst_same begun same, Option.some.injEq] at updated
    subst updated
    exact ⟨UInt8.le_refl _, .inl ⟨fun again => again.1 same, rfl⟩⟩
  · simp only [updateFirst, same, ne_eq, not_false_eq_true, or_true, if_true] at updated
    obtain ⟨grows, ⟨checked, kept⟩ | ⟨refused, read⟩⟩ := update_credit updated hwQueue
    · exact ⟨grows, .inl ⟨by simp [ReadsAgain, checked], kept⟩⟩
    · exact ⟨grows, .inr ⟨⟨same, refused⟩, read⟩⟩

/-- An aggregate of several packets is covered by the counters that it was begun with. -/
theorem Limited.joined_covered (limited : Limited s) (several : 1 < s.packets.length) :
    ((sendPgNum s).toNat : Int) ≤ s.sd.credit s.aggQnode.hwQueue := by
  have full : s.packets ≠ [] := List.length_pos_iff.mp (by omega)
  have charged := sendPgNum_le (s := s)
  have limit := limited.joined several
  have known := limited.pages full
  omega

/-- One packet whose rounded pages are not there does not get another one. -/
theorem Limited.flushes_of_uncovered (limited : Limited s) (full : s.packets ≠ [])
    (updated : updateFirst s qnode first = some s')
    (uncovered : s.sd.credit s.aggQnode.hwQueue < ((sendPgNum s).toNat : Int)) :
    flushes s' qnode = true := by
  have begun : s.aggNum ≠ 0 := limited.packets_nil.not.1 full
  have charged := sendPgNum_le (s := s)
  have known := limited.pages full
  by_cases same : s.aggQnode.qsel = qnode.qsel
  · rw [updateFirst_same begun same, Option.some.injEq] at updated
    subst updated
    have beyond : s.maxPageNum < wfRnd4 (s.aggQnode.pgNum.toNat + qnode.pgNum.toNat) := by
      unfold wfRnd4 at charged ⊢
      omega
    simp [flushes, begun, beyond]
  · obtain ⟨sd, maxPageNum, maxAggNum, rfl⟩ := updateFirst_kept updated
    simp [flushes, begun, same]

variable (second) in
/-- The condition is about the aggregates that are sent. -/
theorem Limited.creditCovers_iff (limited : Limited s) (full : s.packets ≠ [])
    (frame : isFrame richv200 qnode = true)
    (updated : updateFirst s qnode first = some s') :
    CreditCovers richv200 s (.dequeue qnode first second) ↔ (flushes s' qnode = true →
      ((sendPgNum s).toNat : Int) ≤ s'.sd.credit s.aggQnode.hwQueue) := by
  have begun : s.aggNum ≠ 0 := limited.packets_nil.not.1 full
  simp only [CreditCovers, frame, full, ne_eq, not_false_eq_true, forall_const]
  obtain ⟨-, ⟨stays, kept⟩ | ⟨again, pub, own, found, read⟩⟩ :=
    updateFirst_credit updated begun s.aggQnode.hwQueue
  · rw [kept]
    constructor
    · rintro ⟨-, single⟩ -
      by_cases one : s.packets.length = 1
      · exact single stays one
      · have several : 1 < s.packets.length := by
          have some := List.length_pos_iff.mpr full
          omega
        exact limited.joined_covered several
    · intro sent
      refine ⟨fun again => absurd again stays, fun _ _ => ?_⟩
      by_contra uncovered
      exact uncovered (sent (limited.flushes_of_uncovered full updated (by omega)))
  · have sent : flushes s' qnode = true := by
      obtain ⟨sd, maxPageNum, maxAggNum, rfl⟩ := updateFirst_kept updated
      simp [flushes, begun, again.1]
    simp [sent, again, found, read]

theorem covered_send : Covered (aggUpdateSendCore richv200 s) ↔
    Covered s ∧ ((sendPgNum s).toNat : Int) ≤ s.sd.credit s.aggQnode.hwQueue ∧
      s.packets.length ≤ s.sd.sdioTxOqtFreeSpace.toNat := by
  simp only [Covered, aggUpdateSendCore, List.forall_mem_append, List.forall_mem_singleton,
    Aggregate.Covered]

theorem covered_takeFrame (limited : Limited s) (frame : isFrame richv200 qnode = true)
    (taken : takeFrame richv200 s qnode first second = some next) :
    Covered next ↔ Covered s ∧ CreditCovers richv200 s (.dequeue qnode first second) := by
  obtain ⟨s', updated, ways⟩ := takeFrame_cases taken
  obtain ⟨sd, maxPageNum, maxAggNum, same⟩ := updateFirst_kept updated
  have number := updateFirst_aggNum updated
  rcases ways with ⟨sent, s'', again, rfl⟩ | ⟨-, none, rfl⟩ | ⟨stays, begun, rfl⟩
  · have begun : s.aggNum ≠ 0 := number ▸ flushes_begun sent
    have full : s.packets ≠ [] := limited.packets_nil.not.2 begun
    have grows := UInt8.le_iff_toNat_le.mp (updateFirst_credit updated begun .low).1
    have room : s.packets.length ≤ s'.sd.sdioTxOqtFreeSpace.toNat :=
      limited.number.trans grows
    have covers := limited.creditCovers_iff second full frame updated
    simp only [sent, forall_const] at covers
    have next : Covered (openAgg richv200 s'' qnode) ↔
        Covered (aggUpdateSendCore richv200 s') := by
      obtain ⟨sd', maxPageNum', maxAggNum', rfl⟩ := update_kept again
      rfl
    rw [next, covered_send, covers]
    subst same
    simp [Covered, sendPgNum, room]
  · have empty : s.packets = [] := limited.packets_nil.2 (number ▸ none)
    simp [Covered, CreditCovers, openAgg, copyPacket, same, empty]
  · rw [number] at begun
    have full : s.packets ≠ [] := limited.packets_nil.not.2 begun
    have covers := limited.creditCovers_iff second full frame updated
    simp only [stays, Bool.false_eq_true, false_implies, iff_true] at covers
    simp [Covered, covers, joinAgg, copyPacket, same]

theorem covered_drained (limited : Limited s) :
    Covered (txQueueDrained richv200 s) ↔ Covered s ∧ CreditCovers richv200 s .drained := by
  by_cases sent : 0 < s.pktLen ∧ 0 < s.aggNum
  · have next : Covered (txQueueDrained richv200 s) ↔
        Covered (aggUpdateSendCore richv200 s) := by
      simp [txQueueDrained, sent, Covered]
    have some : 0 < s.packets.length := limited.count ▸ sent.2
    rw [next, covered_send]
    simp only [CreditCovers, sent.1, forall_const, limited.number, and_true]
    by_cases one : s.packets.length = 1
    · simp [one]
    · simp [one, limited.joined_covered (by omega)]
  · have next : Covered (txQueueDrained richv200 s) ↔ Covered s := by
      simp [txQueueDrained, sent, Covered]
    have one : 0 < s.pktLen → s.packets.length ≠ 1 := by
      rw [← limited.count]
      omega
    rw [next]
    simp only [CreditCovers, iff_self_and]
    intro _ long single
    exact absurd single (one long)

/-! ## One step -/

theorem limited_openAgg (count : s.aggNum = 0) (empty : s.packets = [])
    (number : 1 ≤ qnode.aggNum.toNat)
    (updated : wfSdioUpdateTxbufSize s qnode reads = some s') :
    Limited (openAgg richv200 s' qnode) := by
  obtain ⟨sd, sd', -, numbered, rfl⟩ := update_spec updated
  obtain ⟨oqt, rfl, enough, -⟩ := freeAgg_spec numbered
  have cap := freeTxPageMax_le qnode.hwQueue
  have room := UInt8.le_iff_toNat_le.mp enough
  constructor
  case number =>
    simp only [openAgg, copyPacket, empty, List.nil_append, List.length_singleton]
    omega
  case maxPageNum => exact Int.le_trans (Int.min_le_right _ _) cap
  case pages => exact fun _ => Int.min_le_left _ _
  case maxAggNum =>
    simp only [openAgg, copyPacket]
    omega
  all_goals simp [openAgg, copyPacket, count, empty]

theorem Limited.joinAgg (limited : Limited s) (full : s.packets ≠ [])
    (pages : (wfRnd4 (s.aggQnode.pgNum.toNat + qnode.pgNum.toNat) : Int) ≤ s.maxPageNum)
    (number : (s.aggNum : Int) ≤ s.maxAggNum) : Limited (joinAgg richv200 s qnode) := by
  have few := limited.maxAggNum full
  have cap := limited.maxPageNum
  have count := limited.count
  have sum : (s.aggQnode.pgNum + qnode.pgNum).toNat =
      s.aggQnode.pgNum.toNat + qnode.pgNum.toNat := by
    unfold wfRnd4 at pages
    rw [UInt8.toNat_add]
    omega
  constructor
  case count => simp [Hif.joinAgg, copyPacket, count]
  case maxPageNum => exact cap
  case pages => exact fun _ => limited.pages full
  case joined =>
    intro _
    simp only [Hif.joinAgg, copyPacket]
    rw [sum]
    exact pages
  case number =>
    simp only [Hif.joinAgg, copyPacket, List.length_append, List.length_singleton]
    omega
  case maxAggNum => exact fun _ => few

theorem Limited.takeFrame (limited : Limited s) (number : 1 ≤ qnode.aggNum.toNat)
    (taken : takeFrame richv200 s qnode first second = some next) : Limited next := by
  obtain ⟨s', updated, ways⟩ := takeFrame_cases taken
  rcases ways with ⟨-, s'', again, rfl⟩ | ⟨-, none, rfl⟩ | ⟨stays, begun, rfl⟩
  · exact limited_openAgg rfl rfl number again
  · obtain ⟨sd, maxPageNum, maxAggNum, same⟩ := updateFirst_kept updated
    have none : s.aggNum = 0 := by simpa [same] using none
    simp only [updateFirst, none, true_or, if_true] at updated
    exact limited_openAgg none (limited.packets_nil.2 none) number updated
  · obtain ⟨pages, qsel, few, -⟩ := not_flushes stays begun
    obtain ⟨sd, maxPageNum, maxAggNum, same⟩ := updateFirst_kept updated
    have begun : s.aggNum ≠ 0 := by simpa [same] using begun
    have qsel : s.aggQnode.qsel = qnode.qsel := by simpa [same] using qsel
    simp only [updateFirst, begun, qsel, ne_eq, not_true_eq_false, or_self, if_false,
      Option.some.injEq] at updated
    subst updated
    exact limited.joinAgg (limited.packets_nil.not.2 begun) pages few

theorem limited_drained : Limited (txQueueDrained richv200 s) := by
  constructor <;> simp [txQueueDrained]

theorem update_nonNeg (nonneg : s.sd.NonNeg)
    (updated : wfSdioUpdateTxbufSize s qnode reads = some s') : s'.sd.NonNeg := by
  obtain ⟨sd, sd', paged, numbered, rfl⟩ := update_spec updated
  obtain ⟨oqt, rfl, -, -⟩ := freeAgg_spec numbered
  have kept : sd.NonNeg := by
    rcases freePages_spec paged with ⟨-, rfl⟩ | ⟨-, pub, own, -, rfl⟩
    · exact nonneg
    · exact nonneg.set qnode.hwQueue (by omega) (by omega)
  exact ⟨kept.ppg, kept.lpg, kept.mpg, kept.hpg⟩

theorem updateFirst_nonNeg (nonneg : s.sd.NonNeg)
    (updated : updateFirst s qnode first = some s') : s'.sd.NonNeg := by
  unfold updateFirst at updated
  split_ifs at updated
  · exact update_nonNeg nonneg updated
  · simp only [Option.some.injEq] at updated
    exact updated ▸ nonneg

theorem send_nonNeg (nonneg : s.sd.NonNeg)
    (covered : Covered (aggUpdateSendCore richv200 s)) :
    (aggUpdateSendCore richv200 s).sd.NonNeg := by
  have charged := nonneg.charge (covered_send.1 covered).2.1
  exact ⟨charged.ppg, charged.lpg, charged.mpg, charged.hpg⟩

theorem Limited.step (limited : Limited s)
    (number : ∀ qnode ∈ framesOf richv200 [event], 1 ≤ qnode.aggNum.toNat)
    (steps : txWorkStep richv200 s event = some next) : Limited next := by
  rcases txWorkStep_cases steps with
    ⟨rfl, rfl⟩ | ⟨qnode, first, second, rfl, ⟨frame, taken⟩ | ⟨-, rfl⟩⟩
  · exact limited_drained
  · exact limited.takeFrame (number qnode (by simp [framesOf, frame])) taken
  · exact limited

theorem covered_step (limited : Limited s)
    (steps : txWorkStep richv200 s event = some next) :
    Covered next ↔ Covered s ∧ CreditCovers richv200 s event := by
  rcases txWorkStep_cases steps with
    ⟨rfl, rfl⟩ | ⟨qnode, first, second, rfl, ⟨frame, taken⟩ | ⟨other, rfl⟩⟩
  · exact covered_drained limited
  · exact covered_takeFrame limited frame taken
  · simp [CreditCovers, other]

theorem step_nonNeg (nonneg : s.sd.NonNeg) (covered : Covered next)
    (steps : txWorkStep richv200 s event = some next) : next.sd.NonNeg := by
  rcases txWorkStep_cases steps with
    ⟨rfl, rfl⟩ | ⟨qnode, first, second, rfl, ⟨-, taken⟩ | ⟨-, rfl⟩⟩
  · unfold txQueueDrained at covered ⊢
    dsimp only at covered ⊢
    split_ifs at covered ⊢
    · exact send_nonNeg nonneg covered
    · exact nonneg
  · obtain ⟨s', updated, ways⟩ := takeFrame_cases taken
    have kept := updateFirst_nonNeg nonneg updated
    rcases ways with ⟨-, s'', again, rfl⟩ | ⟨-, -, rfl⟩ | ⟨-, -, rfl⟩
    · have sent : Covered (aggUpdateSendCore richv200 s') := by
        obtain ⟨sd', maxPageNum', maxAggNum', rfl⟩ := update_kept again
        exact covered
      have opened := update_nonNeg (send_nonNeg kept sent) again
      exact opened
    · exact kept
    · exact kept
  · exact nonneg

end Turn

/-! ## Every run -/

/-- No counter is negative, and each aggregate was charged what was there. -/
def CreditKept (s : TxWork) : Prop := s.sd.NonNeg ∧ Covered s

section Runs

variable {richv200 : Bool} {s next final : TxWork} {events : List TxWorkEvent}
  {event : TxWorkEvent} {sd : HifSdio}

theorem txWorkStart_limited : Limited (txWorkStart sd) := by
  constructor <;> simp [txWorkStart]

theorem creditKept_step (limited : Limited s) (nonneg : Covered s → s.sd.NonNeg)
    (steps : txWorkStep richv200 s event = some next) :
    CreditKept next ↔ CreditKept s ∧ CreditCovers richv200 s event := by
  constructor
  · rintro ⟨-, covered⟩
    obtain ⟨before, covers⟩ := (covered_step limited steps).1 covered
    exact ⟨⟨nonneg before, before⟩, covers⟩
  · rintro ⟨⟨before, covered⟩, covers⟩
    have after := (covered_step limited steps).2 ⟨covered, covers⟩
    exact ⟨step_nonNeg before after steps, after⟩

/-- The credit stays with the worker in every state exactly when each aggregate that is sent
meets the condition. -/
theorem credit_kept_iff (richv200 : Bool) (sd : HifSdio) (events : List TxWorkEvent)
    (final : TxWork) (nonneg : sd.NonNeg)
    (number : ∀ qnode ∈ framesOf richv200 events, 1 ≤ qnode.aggNum.toNat)
    (returned : run (txWorkStep richv200) (txWorkStart sd) events = some final) :
    Throughout (txWorkStep richv200) CreditKept (txWorkStart sd) events ↔
      EachStep (txWorkStep richv200) (CreditCovers richv200) (txWorkStart sd) events := by
  have start : CreditKept (txWorkStart sd) := ⟨nonneg, by simp [Covered, txWorkStart]⟩
  have first : Limited (txWorkStart sd) ∧
      (Covered (txWorkStart sd) → (txWorkStart sd).sd.NonNeg) :=
    ⟨txWorkStart_limited, fun _ => nonneg⟩
  have precise : ∀ s next, ∀ event ∈ events, Limited s ∧ (Covered s → s.sd.NonNeg) →
      txWorkStep richv200 s event = some next →
      (CreditKept next ↔ CreditKept s ∧ CreditCovers richv200 s event) := by
    intro s next event _ limited steps
    exact creditKept_step limited.1 limited.2 steps
  have kept : ∀ s next, ∀ event ∈ events, Limited s ∧ (Covered s → s.sd.NonNeg) →
      txWorkStep richv200 s event = some next →
      Limited next ∧ (Covered next → next.sd.NonNeg) := by
    rintro s next event member ⟨limited, before⟩ steps
    refine ⟨limited.step (fun qnode here => number qnode (mem_framesOf member here)) steps, ?_⟩
    intro covered
    have earlier := ((covered_step limited steps).1 covered).1
    exact step_nonNeg (before earlier) covered steps
  have lasts : ∀ s next, ∀ event ∈ events, Limited s ∧ (Covered s → s.sd.NonNeg) →
      txWorkStep richv200 s event = some next → CreditKept next → CreditKept s :=
    fun s next event member limited steps good =>
      ((precise s next event member limited steps).1 good).1
  rw [throughout_iff_final _ kept lasts first returned,
    final_iff_eachStep _ kept precise first returned]
  simp [start]

end Runs

/-- A chip with one page for queue 2 and none in public. -/
def scarceSdio : HifSdio := ⟨0, 1, 0, 0, 20⟩

theorem scarceSdio_nonNeg : scarceSdio.NonNeg := by
  constructor <;> decide

def oneFrame : List TxWorkEvent := [.dequeue (shortFrame 0x0800) noReads noReads, .drained]

theorem shortFrame_number : ∀ qnode ∈ framesOf true oneFrame, 1 ≤ qnode.aggNum.toNat := by
  decide

theorem credit_kept_roomy :
    ∃ final, run (txWorkStep true) (txWorkStart roomySdio) oneFrame = some final ∧
      (Throughout (txWorkStep true) CreditKept (txWorkStart roomySdio) oneFrame ↔
        EachStep (txWorkStep true) (CreditCovers true) (txWorkStart roomySdio) oneFrame) := by
  have returns : (run (txWorkStep true) (txWorkStart roomySdio) oneFrame).isSome = true := by
    decide +kernel
  obtain ⟨final, returned⟩ := Option.isSome_iff_exists.mp returns
  have nonneg : roomySdio.NonNeg := by constructor <;> decide
  exact ⟨final, returned,
    credit_kept_iff true roomySdio oneFrame final nonneg shortFrame_number returned⟩

/-- One page is there, and four are charged. -/
theorem credit_overdrawn :
    scarceSdio.NonNeg ∧
      (run (txWorkStep true) (txWorkStart scarceSdio) oneFrame).map
        (fun final => final.sd.txFifoPpgNum) = some (-3) ∧
      ¬ Throughout (txWorkStep true) CreditKept (txWorkStart scarceSdio) oneFrame := by
  have overdrawn : (run (txWorkStep true) (txWorkStart scarceSdio) oneFrame).map
      (fun final => final.sd.txFifoPpgNum) = some (-3) := by decide +kernel
  refine ⟨scarceSdio_nonNeg, overdrawn, fun throughout => ?_⟩
  obtain ⟨final, kept, seen⟩ := throughout.observed overdrawn
  have free := kept.1.ppg
  omega

end Smartchip.Hif
