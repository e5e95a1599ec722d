import Smartchip.Hif.UsbRx

/-!
# Whether reception over USB goes on

A node whose URB ends with an error, or for which there is no buffer, stays in
`free_rx_queue` until the tasklet has handled a frame.  When the last one gets there and no
frame is on its way, nothing is received any more.
-/

namespace Smartchip.Hif

open Smartchip.Foundation

/-- When nothing is left for the tasklet, a URB is in flight. -/
def Alive (s : RxPipe) : Prop :=
  s.hifTrCtrl = true → s.devRemoved = false → s.rxQueue = [] → s.sched = false →
    s.running = false → s.urbs ≠ []

def Receives (s : RxPipe) : Prop := s.rxQueue ≠ [] ∨ s.hand ≠ none ∨ s.urbs ≠ []

/-- The last URB that ends brings a frame, or is sent again; behind the last frame a node that
was free is sent. -/
def StillReceives (richv200 : Bool) (s : RxPipe) : RxPipeEvent → Prop
  | .enable _ _ => s.hifTrCtrl = false → s.devRemoved = false → s.freeRxQueue = [] → Receives s
  | .complete qnode urb => s.hifTrCtrl = true → s.devRemoved = false → s.urbs = [qnode] →
      s.rxQueue = [] → s.hand = none →
      urb.status.removes = true ∨ urb.Delivers richv200 ∨ urb.status = .ok ∧ urb.submit = 0
  | .begin | .dequeue => True
  | .handled submit _ => s.hifTrCtrl = true → s.devRemoved = false → s.hand ≠ none →
      s.urbs = [] → s.rxQueue = [] → s.freeRxQueue ≠ [] ∧ submit = 0

def Going (s : RxPipe) : Prop := s.hifTrCtrl = true → s.devRemoved = false → Receives s

section Steps

variable {richv200 : Bool} {s next : RxPipe} {qnode skb : Nat} {urb : RxUrb} {submit : Int}
  {mem : Nat} {event : RxPipeEvent} {queue : List Nat}

theorem going_read (present : s.devRemoved = false) (enabled : s.hifTrCtrl = true)
    (has : HasBuff s qnode) :
    Going (wfUsbReadPort s qnode submit mem) ↔ Receives s ∨ submit = 0 := by
  simp only [Going, Receives, devRemoved_wfUsbReadPort, hifTrCtrl_wfUsbReadPort,
    rxQueue_wfUsbReadPort, hand_wfUsbReadPort, present, enabled, forall_const]
  rcases urbs_wfUsbReadPort qnode submit mem present with ⟨-, accepted, sent⟩ | ⟨refused, same⟩
  · rw [sent]
    simp [accepted]
  · have other : submit ≠ 0 := fun accepted => refused ⟨has, accepted⟩
    simp [other, same]

theorem going_enable :
    Going (wfHifQueueEnable s submit mem) ↔
      Going s ∧ StillReceives richv200 s (.enable submit mem) := by
  cases waits : s.hifTrCtrl with
  | true => simp [wfHifQueueEnable, waits, StillReceives]
  | false =>
      cases head : s.freeRxQueue with
      | nil =>
          rw [wfHifQueueEnable_nil waits head]
          simp [Going, StillReceives, waits, head, Receives]
      | cons qnode queue =>
          rw [wfHifQueueEnable_cons waits head]
          simp [Going, StillReceives, waits, head]

/-- The node of a URB that has ended is the only one that can be sent at once. -/
theorem going_complete (member : qnode ∈ s.urbs) (full : s.buff qnode = some skb)
    (enabled : s.hifTrCtrl = true) (present : s.devRemoved = false)
    (ends : usbReadPortComplete richv200 { s with urbs := s.urbs.erase qnode } qnode urb =
      some next) : Going next ↔ StillReceives richv200 s (.complete qnode urb) := by
  have last : s.urbs.erase qnode = [] ↔ s.urbs = [qnode] := by
    rw [List.erase_eq_nil_iff]
    simp [List.ne_nil_of_mem member]
  rcases complete_cases (s := { s with urbs := s.urbs.erase qnode }) richv200 urb full with
    ⟨delivers, way⟩ | ⟨well, other, way⟩ | ⟨bad, way⟩
  all_goals
    rw [way, Option.some.injEq] at ends
    subst ends
  · have waits : (receiveFrame { s with urbs := s.urbs.erase qnode } qnode skb).rxQueue ≠ [] := by
      simp only [receiveFrame]
      split_ifs <;> simp
    simp [Going, Receives, StillReceives, waits, delivers]
  · have has : HasBuff { s with urbs := s.urbs.erase qnode } qnode := .inl (by simp [full])
    rw [going_read (s := { s with urbs := s.urbs.erase qnode }) present enabled has]
    simp only [Receives, StillReceives, enabled, present, well, other, UrbStatus.removes, ne_eq,
      last, forall_const, Bool.false_eq_true, false_or, true_and]
    grind
  · simp only [Going, Receives, StillReceives, enabled, present, bad, RxUrb.Delivers, ne_eq,
      last, forall_const, Bool.false_or, false_and, or_false]
    cases urb.status.removes with
    | true => simp
    | false =>
        simp
        grind

theorem going_dequeue : Going (hifTaskletRxDequeue s) ↔ Going s := by
  cases received : s.rxQueue with
  | nil => simp [hifTaskletRxDequeue, received, Going, Receives]
  | cons skb queue =>
      simp only [hifTaskletRxDequeue, received]
      split_ifs with removed
      · simp [Going, removed]
      · simp [Going, Receives, received]

theorem going_handled (richv200 : Bool) (hand : s.hand = some skb) (enabled : s.hifTrCtrl = true)
    (present : s.devRemoved = false) :
    Going (hifTaskletRxHandled s skb submit mem) ↔
      StillReceives richv200 s (.handled submit mem) := by
  cases head : s.freeRxQueue with
  | nil =>
      rw [hifTaskletRxHandled_nil head]
      simp only [Going, giveBack, Receives, StillReceives, enabled, present, hand, head]
      simp
      grind
  | cons qnode queue =>
      rw [hifTaskletRxHandled_cons head]
      have has : HasBuff { giveBack s skb with freeRxQueue := queue } qnode :=
        .inr (by simp [giveBack])
      rw [going_read (s := { giveBack s skb with freeRxQueue := queue }) present enabled has]
      simp only [giveBack, Receives, StillReceives, enabled, present, hand, head]
      simp
      grind

theorem going_of_off (off : s.hifTrCtrl = false ∨ s.devRemoved = true) : Going s := by
  rcases off with waits | removed
  · simp [Going, waits]
  · simp [Going, removed]

theorem stillReceives_of_off (off : s.hifTrCtrl = false ∨ s.devRemoved = true)
    (later : ∀ submit mem, event ≠ .enable submit mem) : StillReceives richv200 s event := by
  cases event with
  | enable submit mem => exact absurd rfl (later submit mem)
  | complete qnode urb => rcases off with waits | removed <;> simp [StillReceives, *]
  | begin => trivial
  | dequeue => trivial
  | handled submit mem => rcases off with waits | removed <;> simp [StillReceives, *]

theorem hifTrCtrl_complete
    (ends : usbReadPortComplete richv200 s qnode urb = some next) :
    next.hifTrCtrl = s.hifTrCtrl := by
  cases full : s.buff qnode with
  | none => simp [usbReadPortComplete, full] at ends
  | some skb =>
      rcases complete_cases richv200 urb full with ⟨-, way⟩ | ⟨-, -, way⟩ | ⟨-, way⟩
      all_goals
        rw [way, Option.some.injEq] at ends
        subst ends
      · simp only [hifTrCtrl_wfUsbReadPort, receiveFrame]
        split_ifs <;> rfl
      · simp
      · rfl

theorem hifTrCtrl_dequeue : (hifTaskletRxDequeue s).hifTrCtrl = s.hifTrCtrl := by
  unfold hifTaskletRxDequeue
  split
  · rfl
  · split_ifs <;> rfl

theorem hifTrCtrl_handled :
    (hifTaskletRxHandled s skb submit mem).hifTrCtrl = s.hifTrCtrl := by
  cases head : s.freeRxQueue with
  | nil => simp [hifTaskletRxHandled_nil head, giveBack]
  | cons qnode queue => simp [hifTaskletRxHandled_cons head, giveBack]

/-- What ends a URB or handles a frame before the pipe is enabled, or when the device is
removed, is of no account. -/
theorem off_step (off : s.hifTrCtrl = false ∨ s.devRemoved = true)
    (steps : rxPipeStep richv200 s event = some next)
    (later : ∀ submit mem, event ≠ .enable submit mem) :
    next.hifTrCtrl = false ∨ next.devRemoved = true := by
  rcases off with waits | removed
  · left
    cases event with
    | enable submit mem => exact absurd rfl (later submit mem)
    | complete qnode urb =>
        simp only [rxPipeStep] at steps
        split_ifs at steps
        · exact (hifTrCtrl_complete steps).trans waits
        · simp only [Option.some.injEq] at steps
          exact steps ▸ waits
    | begin =>
        simp only [rxPipeStep, Option.some.injEq] at steps
        subst steps
        split_ifs <;> exact waits
    | dequeue =>
        simp only [rxPipeStep, Option.some.injEq] at steps
        subst steps
        split_ifs
        · exact hifTrCtrl_dequeue.trans waits
        · exact waits
    | handled submit mem =>
        simp only [rxPipeStep] at steps
        split at steps
        · simp only [Option.some.injEq] at steps
          exact steps ▸ waits
        · simp only [Option.some.injEq] at steps
          rw [← steps, hifTrCtrl_handled, waits]
  · right
    by_contra present
    have before := step_present steps (by simpa using present)
    simp [removed] at before

theorem going_step_of_off (off : s.hifTrCtrl = false ∨ s.devRemoved = true)
    (steps : rxPipeStep richv200 s event = some next)
    (later : ∀ submit mem, event ≠ .enable submit mem) :
    Going next ↔ Going s ∧ StillReceives richv200 s event := by
  have after := off_step off steps later
  simp [going_of_off off, going_of_off after, stillReceives_of_off off later]

theorem going_step (placed : Placed [] s) (steps : rxPipeStep richv200 s event = some next) :
    Going next ↔ Going s ∧ StillReceives richv200 s event := by
  cases event with
  | enable submit mem =>
      simp only [rxPipeStep, Option.some.injEq] at steps
      exact steps ▸ going_enable
  | complete qnode urb =>
      by_cases off : s.hifTrCtrl = false ∨ s.devRemoved = true
      · exact going_step_of_off off steps (by simp)
      · simp only [not_or, Bool.not_eq_false, Bool.not_eq_true] at off
        by_cases member : qnode ∈ s.urbs
        · obtain ⟨skb, full⟩ := Option.ne_none_iff_exists'.mp (placed.busy qnode member)
          have going : Going s := fun _ _ => .inr (.inr (List.ne_nil_of_mem member))
          simp only [rxPipeStep, member, if_true] at steps
          simp [going, going_complete member full off.1 off.2 steps]
        · simp only [rxPipeStep, member, if_false, Option.some.injEq] at steps
          subst steps
          have other : s.urbs ≠ [qnode] := fun same => member (by simp [same])
          simp [StillReceives, other]
  | begin =>
      simp only [rxPipeStep, Option.some.injEq] at steps
      subst steps
      split_ifs <;> simp [Going, Receives, StillReceives]
  | dequeue =>
      simp only [rxPipeStep, Option.some.injEq] at steps
      subst steps
      split_ifs
      · simp [going_dequeue, StillReceives]
      · simp [StillReceives]
  | handled submit mem =>
      by_cases off : s.hifTrCtrl = false ∨ s.devRemoved = true
      · exact going_step_of_off off steps (by simp)
      · simp only [not_or, Bool.not_eq_false, Bool.not_eq_true] at off
        cases hand : s.hand with
        | none =>
            simp only [rxPipeStep, hand, Option.some.injEq] at steps
            simp [← steps, StillReceives, hand]
        | some skb =>
            have going : Going s := fun _ _ => .inr (.inl (by simp [hand]))
            simp only [rxPipeStep, hand, Option.some.injEq] at steps
            simp [← steps, going, going_handled richv200 hand off.1 off.2]

theorem Going.alive (going : Going s) (placed : Placed [] s) : Alive s := by
  intro enabled present received _ stopped
  have free : s.hand = none := by
    by_contra held
    simp [placed.hand held] at stopped
  simpa [Receives, received, free] using going enabled present

end Steps

/-! ## Every run -/

/-- The steps that the tasklet takes when there is nothing for it. -/
def Quiet (events : List RxPipeEvent) : Prop :=
  ∀ event ∈ events, event = .begin ∨ event = .dequeue

section Runs

variable {richv200 : Bool} {mem : Nat} {events quiet : List RxPipeEvent} {s : RxPipe}

theorem rxPipeStart_going : Going (rxPipeStart mem) := by
  simp [Going, rxPipeStart]

/-- A tasklet that runs or is scheduled comes to its end. -/
theorem going_of_settles (alive : ∀ quiet, Quiet quiet → ∃ final,
    run (rxPipeStep richv200) s quiet = some final ∧ Alive final) : Going s := by
  intro enabled present
  by_contra stuck
  simp only [Receives, not_or, not_not] at stuck
  obtain ⟨received, free, urbs⟩ := stuck
  obtain ⟨final, settled, alive⟩ := alive [.dequeue, .begin, .dequeue] (by simp [Quiet])
  have ends : final.hifTrCtrl = true ∧ final.devRemoved = false ∧ final.rxQueue = [] ∧
      final.sched = false ∧ final.running = false ∧ final.urbs = [] := by
    cases running : s.running <;> cases sched : s.sched
    all_goals
      simp only [run, rxPipeStep, hifTaskletRxDequeue, running, sched, received, free,
        Option.isNone_none, Bool.and_true, Bool.not_false,
        Bool.false_eq_true, if_true, if_false, Option.bind_eq_bind, Option.bind_some,
        Option.some.injEq] at settled
      subst settled
      simp [running, sched, received, urbs, enabled, present]
  exact alive ends.1 ends.2.1 ends.2.2.1 ends.2.2.2.1 ends.2.2.2.2.1 ends.2.2.2.2.2

theorem quiet_eachStep (still : Quiet quiet) :
    EachStep (rxPipeStep richv200) (StillReceives richv200) s quiet := by
  induction quiet generalizing s with
  | nil => trivial
  | cons event quiet ih =>
      simp only [Quiet, List.forall_mem_cons] at still
      refine ⟨?_, fun next _ => ih still.2⟩
      rcases still.1 with rfl | rfl <;> trivial

/-- Reception goes on in every state that is reached, and in those in which the tasklet then
comes to its end, exactly when the last way to receive is never given up. -/
theorem usb_rx_alive_iff (richv200 : Bool) (mem : Nat) (events : List RxPipeEvent) :
    (∀ quiet, Quiet quiet →
      Throughout (rxPipeStep richv200) Alive (rxPipeStart mem) (events ++ quiet)) ↔
      EachStep (rxPipeStep richv200) (StillReceives richv200) (rxPipeStart mem) events := by
  have placed : Placed [] (rxPipeStart mem) := rxPipeStart_placed
  have kept : ∀ s next, ∀ event ∈ events, Placed [] s →
      rxPipeStep richv200 s event = some next → Placed [] next :=
    fun s next event _ placed steps => placed.after steps
  have precise : ∀ s next, ∀ event ∈ events, Placed [] s →
      rxPipeStep richv200 s event = some next →
      (Going next ↔ Going s ∧ StillReceives richv200 s event) :=
    fun s next event _ placed steps => going_step placed steps
  have returns : ∀ s, ∀ event ∈ events, Placed [] s →
      ∃ next, rxPipeStep richv200 s event = some next ∧ Placed [] next :=
    fun s event _ placed => placed.step richv200 event
  obtain ⟨s, reached, -⟩ := run_total (Placed []) returns placed
  constructor
  · intro alive
    have going : Going s := by
      apply going_of_settles
      intro quiet still
      obtain ⟨final, returned, good⟩ := (alive quiet still).final
      rw [run_append, reached, Option.bind_some] at returned
      exact ⟨final, returned, good⟩
    exact ((final_iff_eachStep _ kept precise placed reached).1 going).2
  · intro steps quiet still
    have all := steps.append reached (quiet_eachStep still)
    apply all.throughout (fun s => Placed [] s ∧ Going s)
    · exact fun s clean => clean.2.alive clean.1
    · intro s event clean allowed
      obtain ⟨next, step, placed'⟩ := clean.1.step richv200 event
      exact ⟨next, step, placed', (going_step clean.1 step).2 ⟨clean.2, allowed⟩⟩
    · exact ⟨placed, rxPipeStart_going⟩

end Runs

/-- All nodes are read, and every URB ends with `-EPROTO`. -/
def allFail : List RxPipeEvent :=
  List.replicate 15 (.enable 0 0) ++
    (List.range 14).map fun qnode => .complete qnode ⟨.eproto, 0, 0, false, 0, 0⟩

/-- Every node is free, and nothing reads it. -/
theorem usb_rx_dead : ¬ Throughout (rxPipeStep true) Alive (rxPipeStart 16) allFail := by
  have dead : (run (rxPipeStep true) (rxPipeStart 16) allFail).map (fun s =>
      ((s.hifTrCtrl, s.devRemoved, s.sched, s.running), s.rxQueue, s.urbs)) =
      some ((true, false, false, false), [], []) := by decide +kernel
  intro throughout
  obtain ⟨final, alive, seen⟩ := throughout.observed dead
  simp only [Prod.mk.injEq] at seen
  obtain ⟨⟨enabled, present, sched, stopped⟩, received, urbs⟩ := seen
  exact alive enabled present received sched stopped urbs

end Smartchip.Hif
