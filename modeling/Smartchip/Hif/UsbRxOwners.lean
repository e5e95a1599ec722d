import Smartchip.Foundation.Custody
import Smartchip.Hif.UsbRx

/-!
# Who owns a receive buffer

A URB that ends with an error leaves its buffer in the node and puts it in the pool as well,
and a node whose submission is refused with `-EPERM` is nowhere.
-/

namespace Smartchip.Hif

open Smartchip.Foundation

/-- The buffers in the nodes. -/
def nodeBuffers (buff : Nat → Option Nat) : List Nat :=
  heldBy (List.range wfRxMaxDataQueueNodeNum) (Option.toList ∘ buff)

/-- Each buffer is in one place, and so is each node, apart from those in `loose`. -/
structure Owned (loose : List Nat) (s : RxPipe) : Prop where
  skbs : (s.freeRxQueueSkb ++ s.rxQueue ++ s.hand.toList ++ nodeBuffers s.buff).Perm
    (List.range s.skbs)
  nodes : (loose ++ s.freeRxQueue ++ s.urbs).Perm (List.range wfRxMaxDataQueueNodeNum)

/-- No URB ends with an error while the device is there, and no submission for which there is
a buffer is refused with `-EPERM`. -/
def OwnersKept (richv200 : Bool) (s : RxPipe) : RxPipeEvent → Prop
  | .enable submit _ => s.devRemoved = false → s.hifTrCtrl = false → s.freeRxQueue ≠ [] →
      s.freeRxQueueSkb ≠ [] → submit ≠ -eperm
  | .complete qnode urb => s.devRemoved = false → qnode ∈ s.urbs →
      urb.status.removes = true ∨ urb.status = .ok ∧
        ((urb.Delivers richv200 → s.freeRxQueueSkb ≠ []) → urb.submit ≠ -eperm)
  | .begin | .dequeue => True
  | .handled submit _ => s.devRemoved = false → s.hand ≠ none → s.freeRxQueue ≠ [] →
      submit ≠ -eperm

/-- And the free nodes have no buffers. -/
structure InCustody (loose : List Nat) (s : RxPipe) : Prop extends Owned loose s where
  bare : ∀ qnode ∈ s.freeRxQueue, s.buff qnode = none

section Moves

variable {richv200 : Bool} {s next : RxPipe} {qnode skb : Nat} {urb : RxUrb} {submit : Int}
  {mem : Nat} {event : RxPipeEvent} {loose queue : List Nat}

theorem Owned.listed (owned : Owned [qnode] s) : qnode ∈ List.range wfRxMaxDataQueueNodeNum :=
  owned.nodes.mem_iff.mp (by simp)

theorem Owned.absent (owned : Owned [qnode] s) : qnode ∉ s.freeRxQueue := by
  have nodup := owned.nodes.nodup_iff.mpr List.nodup_range
  have once : qnode ∉ s.freeRxQueue ∧ qnode ∉ s.urbs ∧ (s.freeRxQueue ++ s.urbs).Nodup := by
    simpa [and_assoc] using nodup
  exact once.1

/-- A buffer that is in the pool or waits for the tasklet is in no node. -/
theorem Owned.unreferenced (owned : Owned loose s)
    (member : skb ∈ s.freeRxQueueSkb ∨ skb ∈ s.rxQueue)
    (listed : qnode < wfRxMaxDataQueueNodeNum) : s.buff qnode ≠ some skb := by
  intro full
  have nodup := owned.skbs.nodup_iff.mpr List.nodup_range
  have inside : skb ∈ nodeBuffers s.buff := by
    rw [nodeBuffers, heldBy, List.mem_flatMap]
    exact ⟨qnode, List.mem_range.mpr listed, by simp [full]⟩
  have apart := (List.nodup_append.mp nodup).2.2
  refine apart skb ?_ skb inside rfl
  rcases member with pool | received
  · simp [pool]
  · simp [received]

theorem nodeBuffers_put (owned : Owned [qnode] s) (empty : s.buff qnode = none) :
    (nodeBuffers (Function.update s.buff qnode (some skb))).Perm
      (skb :: nodeBuffers s.buff) := by
  unfold nodeBuffers
  rw [Function.comp_update]
  exact heldBy_put List.nodup_range owned.listed (by simp [empty])

theorem nodeBuffers_take (owned : Owned [qnode] s) (full : s.buff qnode = some skb) :
    (skb :: nodeBuffers (Function.update s.buff qnode none)).Perm (nodeBuffers s.buff) := by
  unfold nodeBuffers
  rw [Function.comp_update]
  exact heldBy_take List.nodup_range owned.listed (by simp [full])

/-- The buffer of a node that is not free is of no account. -/
theorem InCustody.bare_update (custody : InCustody [qnode] s) (new : Option Nat) :
    ∀ other ∈ s.freeRxQueue, Function.update s.buff qnode new other = none := by
  intro other member
  have apart : other ≠ qnode := fun same => custody.absent (same ▸ member)
  rw [Function.update_of_ne apart]
  exact custody.bare other member

theorem InCustody.fillBuff (custody : InCustody [qnode] s) :
    InCustody [qnode] (fillBuff s qnode) := by
  cases empty : s.buff qnode with
  | some skb => simpa [Hif.fillBuff, empty] using custody
  | none =>
      cases pool : s.freeRxQueueSkb with
      | nil => simpa [Hif.fillBuff, empty, pool] using custody
      | cons skb free =>
          have put : (nodeBuffers (Function.update s.buff qnode (some skb))).Perm
              (skb :: nodeBuffers s.buff) := nodeBuffers_put custody.toOwned empty
          have all := custody.skbs
          simp only [Hif.fillBuff, empty, pool]
          refine { skbs := ?_, nodes := custody.nodes, bare := custody.bare_update _ }
          rw [pool] at all
          exact ((put.append_left _).trans List.perm_middle).trans all

theorem InCustody.unload (custody : InCustody [qnode] s) (full : s.buff qnode = some skb) :
    InCustody [qnode] { s with
      freeRxQueueSkb := s.freeRxQueueSkb ++ [skb]
      buff := Function.update s.buff qnode none } := by
  have take := nodeBuffers_take custody.toOwned full
  refine { skbs := ?_, nodes := custody.nodes, bare := custody.bare_update none }
  refine List.Perm.trans ?_ ((take.append_left _).trans custody.skbs)
  grind

theorem InCustody.receiveFrame (custody : InCustody [qnode] s)
    (full : s.buff qnode = some skb) : InCustody [qnode] (receiveFrame s qnode skb) := by
  have take := nodeBuffers_take custody.toOwned full
  have moved : InCustody [qnode] { s with
      rxQueue := s.rxQueue ++ [skb], buff := Function.update s.buff qnode none } := by
    refine { skbs := ?_, nodes := custody.nodes, bare := custody.bare_update none }
    refine List.Perm.trans ?_ ((take.append_left _).trans custody.skbs)
    grind
  unfold Hif.receiveFrame
  dsimp only
  split_ifs
  · exact { moved with }
  · exact moved

theorem InCustody.alloc (custody : InCustody loose s) (allocCnt : Nat) :
    InCustody loose (wfHifQueueAllocSkb { s with allocCnt } mem) := by
  refine { skbs := ?_, nodes := custody.nodes, bare := custody.bare }
  have all := custody.skbs.append_right (List.range' s.skbs (min mem hifQueueAllocSkbNum))
  have ids : List.range (s.skbs + min mem hifQueueAllocSkbNum) =
      List.range s.skbs ++ List.range' s.skbs (min mem hifQueueAllocSkbNum) := by
    rw [List.range_add, List.range'_eq_map_range]
  simp only [wfHifQueueAllocSkb, ids]
  refine List.Perm.trans ?_ all
  grind

theorem InCustody.park (custody : InCustody [qnode] s) (empty : s.buff qnode = none) :
    InCustody [] { s with freeRxQueue := wfDataQueueInsert s.freeRxQueue qnode } := by
  refine { skbs := custody.skbs, nodes := ?_, bare := ?_ }
  · have moved : (wfDataQueueInsert s.freeRxQueue qnode ++ s.urbs).Perm
        ([qnode] ++ s.freeRxQueue ++ s.urbs) := List.perm_append_comm.append_right s.urbs
    exact moved.trans custody.nodes
  · intro other member
    rcases List.mem_append.mp member with before | here
    · exact custody.bare other before
    · exact List.mem_singleton.mp here ▸ empty

theorem InCustody.sent (custody : InCustody [qnode] s) :
    InCustody [] { s with urbs := qnode :: s.urbs } :=
  { custody with nodes := List.perm_middle.trans custody.nodes }

theorem InCustody.read (custody : InCustody [qnode] s) (present : s.devRemoved = false)
    (accepted : HasBuff s qnode → submit ≠ -eperm) :
    InCustody [] (wfUsbReadPort s qnode submit mem) := by
  have filled := custody.fillBuff
  rcases wfUsbReadPort_cases qnode submit mem present with
    ⟨bare, s', rfl | rfl, read⟩ | ⟨-, -, -, skb, full, read⟩ | ⟨-, -, read⟩ | ⟨has, lost, read⟩
  · simp only [HasBuff, not_or, not_not] at bare
    exact read ▸ custody.park bare.1
  · simp only [HasBuff, not_or, not_not] at bare
    exact read ▸ (custody.alloc _).park bare.1
  · exact read ▸ (filled.unload full).park (Function.update_self _ _ _)
  · exact read ▸ filled.sent
  · exact absurd lost (accepted has)

theorem InCustody.erase (custody : InCustody [] s) (member : qnode ∈ s.urbs) :
    InCustody [qnode] { s with urbs := s.urbs.erase qnode } := by
  have moved : ([qnode] ++ s.freeRxQueue ++ s.urbs.erase qnode).Perm
      ([] ++ s.freeRxQueue ++ s.urbs) :=
    (List.perm_middle.symm).trans ((List.perm_cons_erase member).symm.append_left _)
  exact { custody with nodes := moved.trans custody.nodes }

theorem InCustody.giveBack (custody : InCustody loose s) (hand : s.hand = some skb) :
    InCustody loose (giveBack s skb) := by
  refine { skbs := ?_, nodes := custody.nodes, bare := custody.bare }
  refine List.Perm.trans ?_ custody.skbs
  rw [hand]
  simp only [Hif.giveBack, Option.toList_none, Option.toList_some]
  grind

theorem InCustody.dequeue (custody : InCustody loose s) (present : s.devRemoved = false)
    (free : s.hand = none) : InCustody loose (hifTaskletRxDequeue s) := by
  cases received : s.rxQueue with
  | nil =>
      simp only [hifTaskletRxDequeue, received]
      exact { custody with skbs := by simpa [received] using custody.skbs }
  | cons skb queue =>
      have all := custody.skbs
      simp only [hifTaskletRxDequeue, received, present, Bool.false_eq_true, if_false]
      refine { skbs := ?_, nodes := custody.nodes, bare := custody.bare }
      refine List.Perm.trans ?_ all
      rw [received, free]
      simp only [Option.toList_none, Option.toList_some]
      grind

/-- A free node has no buffer, and takes one from the pool. -/
theorem InCustody.take (custody : InCustody [] s) (head : s.freeRxQueue = qnode :: queue) :
    InCustody [qnode] { s with freeRxQueue := queue } ∧
      (HasBuff { s with freeRxQueue := queue } qnode ↔ s.freeRxQueueSkb ≠ []) := by
  have empty : s.buff qnode = none := custody.bare qnode (by simp [head])
  constructor
  · refine { skbs := custody.skbs, nodes := ?_, bare := ?_ }
    · simpa [head] using custody.nodes
    · exact fun other member => custody.bare other (by simp [head, member])
  · simp [HasBuff, empty]

/-! ## What is lost -/

/-- A node whose submission is refused with `-EPERM` is nowhere. -/
theorem InCustody.lost (custody : InCustody [qnode] s) (present : s.devRemoved = false)
    (has : HasBuff s qnode) : ¬ Owned [] (wfUsbReadPort s qnode (-eperm) mem) := by
  intro owned
  have filled := custody.fillBuff
  have before := filled.nodes.length_eq
  have after := owned.nodes.length_eq
  have read : wfUsbReadPort s qnode (-eperm) mem = Hif.fillBuff s qnode := by
    rcases wfUsbReadPort_cases qnode (-eperm) mem present with
      ⟨bare, -⟩ | ⟨-, -, refused, -⟩ | ⟨-, accepted, -⟩ | ⟨-, -, read⟩
    · exact absurd has bare
    · exact absurd rfl refused
    · simp [eperm] at accepted
    · exact read
  rw [read] at after
  simp only [List.length_append, List.length_cons, List.length_nil] at before after
  omega

/-- The buffer of a URB that ends with an error is in the pool and in the node. -/
theorem InCustody.doubled (custody : InCustody [qnode] s) {removed : Bool} :
    ¬ Owned [] { s with
      freeRxQueueSkb := s.freeRxQueueSkb ++ [skb]
      freeRxQueue := wfDataQueueInsert s.freeRxQueue qnode
      devRemoved := removed } := by
  intro owned
  have before := custody.skbs.length_eq
  have after := owned.skbs.length_eq
  simp only [List.length_append, List.length_cons, List.length_nil] at before after
  omega

end Moves

/-! ## Every step -/

section Steps

variable {richv200 : Bool} {s next : RxPipe} {qnode skb : Nat} {urb : RxUrb} {submit : Int}
  {mem : Nat} {event : RxPipeEvent}

/-- While the device is there every buffer has one owner. -/
def OwnersApart (s : RxPipe) : Prop := s.devRemoved = false → Owned [] s

def Clean (s : RxPipe) : Prop := Placed [] s ∧ (s.devRemoved = false → InCustody [] s)

theorem hasBuff_receiveFrame :
    HasBuff (receiveFrame s qnode skb) qnode ↔ s.freeRxQueueSkb ≠ [] := by
  simp only [HasBuff, receiveFrame]
  split_ifs <;> simp

theorem InCustody.complete (custody : InCustody [qnode] s) (full : s.buff qnode = some skb)
    (present : s.devRemoved = false) (well : urb.status = .ok)
    (accepted : (urb.Delivers richv200 → s.freeRxQueueSkb ≠ []) → urb.submit ≠ -eperm)
    (ends : usbReadPortComplete richv200 s qnode urb = some next) : InCustody [] next := by
  rcases complete_cases richv200 urb full with ⟨-, way⟩ | ⟨-, other, way⟩ | ⟨bad, -⟩
  · rw [way, Option.some.injEq] at ends
    subst ends
    apply (custody.receiveFrame full).read (devRemoved_receiveFrame.trans present)
    exact fun has => accepted fun _ => hasBuff_receiveFrame.1 has
  · rw [way, Option.some.injEq] at ends
    subst ends
    exact custody.read present fun _ => accepted fun delivers => absurd delivers other
  · exact absurd well bad

theorem InCustody.complete_refused (custody : InCustody [qnode] s)
    (full : s.buff qnode = some skb) (present : s.devRemoved = false)
    (refused : ¬ (urb.status.removes = true ∨ urb.status = .ok ∧
      ((urb.Delivers richv200 → s.freeRxQueueSkb ≠ []) → urb.submit ≠ -eperm)))
    (ends : usbReadPortComplete richv200 s qnode urb = some next) : ¬ OwnersApart next := by
  intro apart
  simp only [not_or, not_and, Bool.not_eq_true, Classical.not_imp, not_not] at refused
  obtain ⟨stays, lost⟩ := refused
  rcases complete_cases richv200 urb full with ⟨delivers, way⟩ | ⟨well, other, way⟩ | ⟨-, way⟩
  all_goals
    rw [way, Option.some.injEq] at ends
    subst ends
  · obtain ⟨pool, eperm⟩ := lost delivers.1
    have still : (Hif.receiveFrame s qnode skb).devRemoved = false :=
      devRemoved_receiveFrame.trans present
    rw [eperm] at apart
    exact (custody.receiveFrame full).lost still (hasBuff_receiveFrame.2 (pool delivers))
      (apart (devRemoved_wfUsbReadPort.trans still))
  · obtain ⟨-, eperm⟩ := lost well
    rw [eperm] at apart
    exact custody.lost present (.inl (by simp [full]))
      (apart (devRemoved_wfUsbReadPort.trans present))
  · exact custody.doubled (apart (by simp [present, stays]))

theorem Clean.step (clean : Clean s) (allowed : OwnersKept richv200 s event) :
    ∃ next, rxPipeStep richv200 s event = some next ∧ Clean next := by
  obtain ⟨placed, owned⟩ := clean
  obtain ⟨next, steps, placed'⟩ := placed.step richv200 event
  refine ⟨next, steps, placed', fun still => ?_⟩
  have present := step_present steps still
  have custody := owned present
  cases event with
  | enable submit mem =>
      simp only [rxPipeStep, Option.some.injEq] at steps
      subst steps
      cases waits : s.hifTrCtrl with
      | true => simpa [wfHifQueueEnable, waits] using custody
      | false =>
          cases head : s.freeRxQueue with
          | nil =>
              rw [wfHifQueueEnable_nil waits head]
              exact { custody with }
          | cons qnode queue =>
              rw [wfHifQueueEnable_cons waits head]
              obtain ⟨taken, has⟩ := custody.take head
              exact taken.read present fun full =>
                allowed present waits (by simp [head]) (has.1 full)
  | complete qnode urb =>
      simp only [rxPipeStep] at steps
      split_ifs at steps with member
      · obtain ⟨skb, full⟩ := Option.ne_none_iff_exists'.mp (placed.busy qnode member)
        rcases allowed present member with removes | ⟨well, accepted⟩
        · rcases complete_cases (s := { s with urbs := s.urbs.erase qnode }) richv200 urb full
            with ⟨delivers, -⟩ | ⟨well, -⟩ | ⟨-, way⟩
          · simp [delivers.1, UrbStatus.removes] at removes
          · simp [well, UrbStatus.removes] at removes
          · rw [way, Option.some.injEq] at steps
            subst steps
            simp [removes] at still
        · exact (custody.erase member).complete full present well accepted steps
      · simp only [Option.some.injEq] at steps
        exact steps ▸ custody
  | begin =>
      simp only [rxPipeStep, Option.some.injEq] at steps
      subst steps
      split_ifs
      · exact { custody with }
      · exact custody
  | dequeue =>
      simp only [rxPipeStep, Option.some.injEq] at steps
      subst steps
      split_ifs with idle
      · simp only [Bool.and_eq_true, Option.isNone_iff_eq_none] at idle
        exact custody.dequeue present idle.2
      · exact custody
  | handled submit mem =>
      cases hand : s.hand with
      | none =>
          simp only [rxPipeStep, hand, Option.some.injEq] at steps
          exact steps ▸ custody
      | some skb =>
          simp only [rxPipeStep, hand, Option.some.injEq] at steps
          subst steps
          have back := custody.giveBack hand
          cases head : s.freeRxQueue with
          | nil =>
              rw [hifTaskletRxHandled_nil head]
              exact back
          | cons qnode queue =>
              rw [hifTaskletRxHandled_cons head]
              exact (back.take head).1.read present fun _ =>
                allowed present (by simp [hand]) (by simp [head])

theorem Clean.refused (clean : Clean s) (refused : ¬ OwnersKept richv200 s event)
    (steps : rxPipeStep richv200 s event = some next) : ¬ OwnersApart next := by
  obtain ⟨placed, owned⟩ := clean
  cases event with
  | enable submit mem =>
      simp only [OwnersKept, Classical.not_imp, not_not] at refused
      obtain ⟨present, waits, free, pool, rfl⟩ := refused
      obtain ⟨qnode, queue, head⟩ := List.exists_cons_of_ne_nil free
      obtain ⟨taken, has⟩ := (owned present).take head
      simp only [rxPipeStep, Option.some.injEq] at steps
      rw [← steps, wfHifQueueEnable_cons waits head]
      exact fun apart => taken.lost present (has.2 pool)
        (apart (devRemoved_wfUsbReadPort.trans present))
  | complete qnode urb =>
      simp only [OwnersKept, Classical.not_imp] at refused
      obtain ⟨present, member, refused⟩ := refused
      obtain ⟨skb, full⟩ := Option.ne_none_iff_exists'.mp (placed.busy qnode member)
      simp only [rxPipeStep, member, if_true] at steps
      exact ((owned present).erase member).complete_refused full present refused steps
  | begin => exact absurd trivial refused
  | dequeue => exact absurd trivial refused
  | handled submit mem =>
      simp only [OwnersKept, Classical.not_imp, not_not] at refused
      obtain ⟨present, held, free, rfl⟩ := refused
      obtain ⟨skb, hand⟩ := Option.ne_none_iff_exists'.mp held
      obtain ⟨qnode, queue, head⟩ := List.exists_cons_of_ne_nil free
      obtain ⟨taken, has⟩ := ((owned present).giveBack hand).take head
      simp only [rxPipeStep, hand, Option.some.injEq] at steps
      rw [← steps, hifTaskletRxHandled_cons head]
      exact fun apart => taken.lost present (has.2 (by simp [giveBack]))
        (apart (devRemoved_wfUsbReadPort.trans present))

theorem rxPipeStart_clean : Clean (rxPipeStart mem) := by
  refine ⟨rxPipeStart_placed, fun _ => ?_⟩
  constructor
  case toOwned =>
    constructor
    · have none : nodeBuffers (fun _ => none) = [] := by
        simp [nodeBuffers, heldBy]
      simp [rxPipeStart, none]
    · simp [rxPipeStart]
  case bare => simp [rxPipeStart]

/-- Every buffer has one owner and every node one place, in every state that is reached while
the device is there, exactly when no URB ends with an error and `-EPERM` is never the answer
to a submission. -/
theorem usb_rx_owners_iff (richv200 : Bool) (mem : Nat) (events : List RxPipeEvent) :
    Throughout (rxPipeStep richv200) OwnersApart (rxPipeStart mem) events ↔
      EachStep (rxPipeStep richv200) (OwnersKept richv200) (rxPipeStart mem) events := by
  apply throughout_iff_of_clean Clean
  · exact fun s clean present => (clean.2 present).toOwned
  · exact fun s event clean allowed => clean.step allowed
  · exact fun s event next clean refused steps => clean.refused refused steps
  · exact rxPipeStart_clean

/-- The URB of a node that has been read ends with `-EPROTO`. -/
def protoError : List RxPipeEvent :=
  [.enable 0 0, .complete 0 ⟨.eproto, 0, 0, false, 0, 0⟩]

/-- The buffer is in the pool, and in the node. -/
theorem usb_rx_two_owners :
    (run (rxPipeStep true) (rxPipeStart 1) protoError).map
        (fun s => (s.devRemoved, s.freeRxQueueSkb, s.buff 0)) = some (false, [0], some 0) ∧
      ¬ Throughout (rxPipeStep true) OwnersApart (rxPipeStart 1) protoError := by
  have doubled : (run (rxPipeStep true) (rxPipeStart 1) protoError).map
      (fun s => (s.devRemoved, s.freeRxQueueSkb, s.buff 0)) = some (false, [0], some 0) := by
    decide
  refine ⟨doubled, fun throughout => ?_⟩
  obtain ⟨final, apart, seen⟩ := throughout.observed doubled
  simp only [Prod.mk.injEq] at seen
  obtain ⟨present, pool, node⟩ := seen
  exact (apart present).unreferenced (.inl (by simp [pool])) (by decide) node

end Steps

end Smartchip.Hif
