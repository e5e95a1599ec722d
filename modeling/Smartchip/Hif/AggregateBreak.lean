import Smartchip.Hif.AggregateLayout

/-!
# Packets that are not aggregated

`pkt_is_agg_disable` is asked about the packet at hand, and what it says is forgotten with
the next one.  The packet is sent alone unless that one goes with it.
-/

namespace Smartchip.Hif

open Smartchip.Foundation

def Alone (packets : List DataQueueNode) : Prop :=
  ∀ qnode ∈ packets, pktIsAggDisable qnode = true → packets.length = 1

/-- Behind a packet of the open aggregate that is not to be aggregated, the next one is of
another queue, goes over a limit, or is not to be aggregated itself. -/
def KeptApart (richv200 : Bool) (s : TxWork) : TxWorkEvent → Prop
  | .dequeue qnode _ _ => isFrame richv200 qnode = true →
      (∃ other ∈ s.packets, pktIsAggDisable other = true) →
      s.maxPageNum < wfRnd4 (s.aggQnode.pgNum.toNat + qnode.pgNum.toNat) ∨
        s.aggQnode.qsel ≠ qnode.qsel ∨ s.maxAggNum < s.aggNum ∨ pktIsAggDisable qnode = true
  | .drained => True

/-- The open aggregate and those that are written. -/
def Apart (s : TxWork) : Prop :=
  (∀ agg ∈ s.written, Alone agg.packets) ∧ Alone s.packets

section Steps

variable {richv200 : Bool} {s next : TxWork} {qnode : DataQueueNode}
  {packets : List DataQueueNode} {first second : ChipReads} {event : TxWorkEvent}

theorem alone_nil : Alone [] := by
  simp [Alone]

theorem alone_singleton : Alone [qnode] := by
  simp [Alone]

theorem alone_snoc (full : packets ≠ []) (enabled : pktIsAggDisable qnode = false) :
    Alone (packets ++ [qnode]) ↔ ¬ ∃ other ∈ packets, pktIsAggDisable other = true := by
  have long : (packets ++ [qnode]).length ≠ 1 := by
    simpa using full
  simp only [Alone, long, imp_false, List.forall_mem_append, List.forall_mem_singleton, enabled,
    Bool.false_eq_true, not_false_eq_true, and_true, not_exists, not_and]

/-- The flow control in front of the decision says nothing about it. -/
theorem flushes_updateFirst (updated : updateFirst s qnode first = some next)
    (begun : s.aggNum ≠ 0) :
    flushes next qnode = true ↔
      s.maxPageNum < wfRnd4 (s.aggQnode.pgNum.toNat + qnode.pgNum.toNat) ∨
        s.aggQnode.qsel ≠ qnode.qsel ∨ s.maxAggNum < s.aggNum ∨
        pktIsAggDisable qnode = true := by
  by_cases same : s.aggQnode.qsel = qnode.qsel
  · rw [updateFirst_same begun same, Option.some.injEq] at updated
    simp [← updated, flushes, begun, same, or_assoc]
  · obtain ⟨sd, maxPageNum, maxAggNum, rfl⟩ := updateFirst_kept updated
    simp [flushes, begun, same]

theorem apart_takeFrame (counted : Counted richv200 s)
    (frame : isFrame richv200 qnode = true)
    (taken : takeFrame richv200 s qnode first second = some next) :
    Apart next ↔ Apart s ∧ KeptApart richv200 s (.dequeue qnode first second) := by
  obtain ⟨s', updated, ways⟩ := takeFrame_cases taken
  obtain ⟨sd, maxPageNum, maxAggNum, same⟩ := updateFirst_kept updated
  have number := updateFirst_aggNum updated
  rcases ways with ⟨sent, s'', again, rfl⟩ | ⟨-, none, rfl⟩ | ⟨stays, begun, rfl⟩
  · -- the aggregate is written, and the packet begins another
    have begun : s.aggNum ≠ 0 := number ▸ flushes_begun sent
    have goes := (flushes_updateFirst updated begun).1 sent
    have apart : KeptApart richv200 s (.dequeue qnode first second) := fun _ _ => goes
    obtain ⟨sd', maxPageNum', maxAggNum', rfl⟩ := update_kept again
    simp [Apart, openAgg, copyPacket, aggUpdateSendCore, same, alone_singleton, apart, or_imp,
      forall_and]
  · have empty : s.packets = [] := counted.packets_nil.2 (number ▸ none)
    simp [Apart, openAgg, copyPacket, same, empty, alone_singleton, alone_nil, KeptApart]
  · rw [number] at begun
    have full : s.packets ≠ [] := counted.packets_nil.not.2 begun
    have refused := (flushes_updateFirst updated begun).not.1 (by simp [stays])
    have enabled : pktIsAggDisable qnode = false := by
      simpa using fun disabled => refused (.inr (.inr (.inr disabled)))
    have none : KeptApart richv200 s (.dequeue qnode first second) ↔
        ¬ ∃ other ∈ s.packets, pktIsAggDisable other = true := by
      simp only [KeptApart, frame, forall_const, imp_iff_not refused]
    have packets : (joinAgg richv200 s' qnode).packets = s.packets ++ [qnode] := by
      simp [joinAgg, copyPacket, same]
    have written : (joinAgg richv200 s' qnode).written = s.written := by
      simp [joinAgg, copyPacket, same]
    rw [Apart, Apart, packets, written, alone_snoc full enabled, none]
    constructor
    · rintro ⟨before, clean⟩
      refine ⟨⟨before, ?_⟩, clean⟩
      intro other member disabled
      exact absurd ⟨other, member, disabled⟩ clean
    · rintro ⟨⟨before, -⟩, clean⟩
      exact ⟨before, clean⟩

theorem apart_drained (counted : Counted richv200 s) :
    Apart (txQueueDrained richv200 s) ↔ Apart s := by
  rw [counted.drained]
  split_ifs with empty
  · simp [Apart, empty, alone_nil]
  · simp [Apart, aggUpdateSendCore, alone_nil, or_imp, forall_and]

theorem apart_step (counted : Counted richv200 s)
    (steps : txWorkStep richv200 s event = some next) :
    Apart next ↔ Apart s ∧ KeptApart richv200 s event := by
  rcases txWorkStep_cases steps with
    ⟨rfl, rfl⟩ | ⟨qnode, first, second, rfl, ⟨frame, taken⟩ | ⟨other, rfl⟩⟩
  · simp [apart_drained counted, KeptApart]
  · exact apart_takeFrame counted frame taken
  · simp [KeptApart, other]

end Steps

section Runs

variable {richv200 : Bool} {events : List TxWorkEvent} {sd : HifSdio} {final : TxWork}

/-- With `CONFIG_RICHV200` the size of a descriptor is no multiple of 8. -/
theorem alignSize_richv200 (realSize : Nat) : 0 < alignSize true realSize := by
  simp only [alignSize, txdescSize, if_true]
  omega

theorem txWorkStart_apart : Apart (txWorkStart sd) := by
  simp [Apart, txWorkStart, alone_nil]

theorem apart_run (occupied : ∀ qnode ∈ framesOf richv200 events, 0 < qnode.alignSize richv200)
    (reached : run (txWorkStep richv200) (txWorkStart sd) events = some final) :
    Apart final ↔
      EachStep (txWorkStep richv200) (KeptApart richv200) (txWorkStart sd) events := by
  have runs : Apart final ↔ Apart (txWorkStart sd) ∧
      EachStep (txWorkStep richv200) (KeptApart richv200) (txWorkStart sd) events := by
    apply final_iff_eachStep (Counted richv200) _ _ (txWorkStart_counted sd) reached
    · intro s next event member counted steps
      exact (counted.step (fun qnode here => occupied qnode (mem_framesOf member here)) steps).1
    · intro s next event _ counted steps
      exact apart_step counted steps
  simpa [txWorkStart_apart] using runs

/-- What is sent of packets that are not aggregated. -/
def SentAlone (richv200 : Bool) (events : List TxWorkEvent) (final : TxWork) : Prop :=
  ∀ qnode ∈ framesOf richv200 events, pktIsAggDisable qnode = true →
    (∃ agg ∈ final.written, qnode ∈ agg.packets) ∧
      ∀ agg ∈ final.written, qnode ∈ agg.packets → agg.packets.length = 1

theorem sentAlone_iff (sent : final.written.flatMap Aggregate.packets = framesOf richv200 events) :
    SentAlone richv200 events final ↔ ∀ agg ∈ final.written, Alone agg.packets := by
  constructor
  · intro alone agg member qnode inside disabled
    have taken : qnode ∈ framesOf richv200 events := by
      rw [← sent, List.mem_flatMap]
      exact ⟨agg, member, inside⟩
    exact (alone qnode taken disabled).2 agg member inside
  · intro alone qnode taken disabled
    rw [← sent, List.mem_flatMap] at taken
    exact ⟨taken, fun agg member inside => alone agg member qnode inside disabled⟩

/-- A packet that is not aggregated is sent alone exactly when the next one is kept apart. -/
theorem agg_disabled_alone_iff (richv200 : Bool) (sd : HifSdio) (events : List TxWorkEvent)
    (final : TxWork)
    (occupied : richv200 = false →
      ∀ qnode ∈ framesOf richv200 events, 0 < qnode.alignSize richv200)
    (returned : run (txWorkStep richv200) (txWorkStart sd) (events ++ [.drained]) =
      some final) :
    SentAlone richv200 events final ↔
      EachStep (txWorkStep richv200) (KeptApart richv200) (txWorkStart sd) events := by
  have occupies : ∀ qnode ∈ framesOf richv200 events, 0 < qnode.alignSize richv200 := by
    cases richv200 with
    | true => exact fun qnode _ => alignSize_richv200 qnode.realSize
    | false => exact occupied rfl
  rw [sentAlone_iff (sent_in_order occupies returned)]
  rw [run_append, Option.bind_eq_some_iff] at returned
  obtain ⟨s, reached, last⟩ := returned
  have counted := ((txWorkStart_counted sd).run occupies reached).1
  cases last
  rw [← apart_run occupies reached, ← apart_drained counted]
  simp [Apart, txQueueDrained, alone_nil]

end Runs

def arpFirst : List TxWorkEvent :=
  [.dequeue (shortFrame 0x0806) noReads noReads, .dequeue (shortFrame 0x0800) noReads noReads]

theorem agg_disabled_alone_arpLast :
    ∃ final, run (txWorkStep true) (txWorkStart roomySdio) (arpFirst.reverse ++ [.drained]) =
        some final ∧
      (SentAlone true arpFirst.reverse final ↔
        EachStep (txWorkStep true) (KeptApart true) (txWorkStart roomySdio)
          arpFirst.reverse) := by
  have returns : (run (txWorkStep true) (txWorkStart roomySdio)
      (arpFirst.reverse ++ [.drained])).isSome = true := by decide +kernel
  obtain ⟨final, returned⟩ := Option.isSome_iff_exists.mp returns
  exact ⟨final, returned, agg_disabled_alone_iff true roomySdio arpFirst.reverse final
    (by simp) returned⟩

/-- A packet of IPv4 goes into the aggregate that one of ARP has begun. -/
theorem agg_disabled_joined :
    ∃ final, run (txWorkStep true) (txWorkStart roomySdio) (arpFirst ++ [.drained]) =
        some final ∧ ¬ SentAlone true arpFirst final := by
  have written : (run (txWorkStep true) (txWorkStart roomySdio) (arpFirst ++ [.drained])).map
      (fun final => final.written.map Aggregate.packets) =
        some [[shortFrame 0x0806, shortFrame 0x0800]] := by decide +kernel
  obtain ⟨final, returned, packets⟩ := Option.map_eq_some_iff.mp written
  refine ⟨final, returned, fun alone => ?_⟩
  have here : [shortFrame 0x0806, shortFrame 0x0800] ∈ final.written.map Aggregate.packets := by
    simp [packets]
  obtain ⟨agg, member, same⟩ := List.mem_map.mp here
  have first : shortFrame 0x0806 ∈ framesOf true arpFirst := by decide
  have single := (alone _ first (by decide)).2 agg member (by simp [same])
  simp [same] at single

end Smartchip.Hif
