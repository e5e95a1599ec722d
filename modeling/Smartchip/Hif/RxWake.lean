import Smartchip.Foundation.Run

/-!
# Who wakes the receive tasklet

`usb_read_port_complete` appends a buffer to `rx_queue`, reads the length of the queue and
schedules the tasklet when it is at most 1.  URBs may end at the same time, and the tasklet may
run between any two of these steps.
-/

namespace Smartchip.Hif

open Smartchip.Foundation

universe u

/-- How far a completion has come: it has appended its buffer, or read the length. -/
inductive Completion where
  | appended
  | counted (queueLen : Nat)
  deriving DecidableEq

/-- `emptied` is the tasklet that has found the queue empty and has not returned yet. -/
inductive Tasklet where
  | idle
  | draining
  | emptied
  deriving DecidableEq

structure RxWake (Skb : Type u) where
  rxQueue : List Skb
  completions : List Completion
  sched : Bool
  tasklet : Tasklet

inductive RxWakeEvent (Skb : Type u) where
  | append (skb : Skb)
  | count (i : Nat)
  | schedule (i : Nat)
  | begin
  | dequeue
  | stop

section Model

variable {Skb : Type u}

/-- The length of the queue is read. -/
def countQueue (s : RxWake Skb) (i : Nat) : RxWake Skb :=
  match s.completions[i]? with
  | some .appended =>
      { s with completions := s.completions.set i (.counted s.rxQueue.length) }
  | _ => s

/-- `wf_tasklet_hi_sched`, if the length says so; the completion is through. -/
def scheduleTasklet (s : RxWake Skb) (i : Nat) : RxWake Skb :=
  match s.completions[i]? with
  | some (.counted queueLen) =>
      { s with
        completions := s.completions.eraseIdx i
        sched := if queueLen ≤ 1 then true else s.sched }
  | _ => s

/-- One turn of the loop of `hif_tasklet_rx_handle`. -/
def drainQueue (s : RxWake Skb) : RxWake Skb :=
  if s.tasklet = .draining then
    match s.rxQueue with
    | [] => { s with tasklet := .emptied }
    | _ :: queue => { s with rxQueue := queue }
  else s

def rxWakeStep (s : RxWake Skb) : RxWakeEvent Skb → Option (RxWake Skb)
  | .append skb => some { s with
      rxQueue := s.rxQueue ++ [skb], completions := s.completions ++ [.appended] }
  | .count i => some (countQueue s i)
  | .schedule i => some (scheduleTasklet s i)
  | .begin => some (if s.sched = true ∧ s.tasklet = .idle then
      { s with sched := false, tasklet := .draining } else s)
  | .dequeue => some (drainQueue s)
  | .stop => some (if s.tasklet = .emptied then { s with tasklet := .idle } else s)

def rxWakeStart : RxWake Skb := ⟨[], [], false, .idle⟩

/-! ## What is to hold -/

/-- A buffer that no completion is about to announce is for a tasklet that comes. -/
def Served (s : RxWake Skb) : Prop :=
  s.completions = [] → s.rxQueue ≠ [] → s.sched = true ∨ s.tasklet ≠ .idle

/-- A completion is about to schedule the tasklet. -/
def Announced (completions : List Completion) : Prop :=
  ∃ queueLen, .counted queueLen ∈ completions ∧ queueLen ≤ 1

/-- The tasklet is scheduled or drains the queue, or it is about to be scheduled. -/
def Roused (s : RxWake Skb) : Prop :=
  s.sched = true ∨ s.tasklet = .draining ∨ Announced s.completions

/-- A buffer goes behind another one only when the tasklet has been roused for that one, or no
completion is between its append and the length that it reads. -/
def NoOverlap (s : RxWake Skb) : RxWakeEvent Skb → Prop
  | .append _ => s.rxQueue ≠ [] → .appended ∈ s.completions → Roused s
  | .count _ | .schedule _ | .begin | .dequeue | .stop => True

/-- The tasklet is roused, or a completion will read a length of 1. -/
def Awake (s : RxWake Skb) : Prop :=
  s.rxQueue ≠ [] → Roused s ∨ s.rxQueue.length = 1 ∧ .appended ∈ s.completions

end Model

section Steps

variable {Skb : Type u} {s next : RxWake Skb} {event : RxWakeEvent Skb} {i : Nat}

theorem Awake.served (awake : Awake s) : Served s := by
  intro through waiting
  rcases awake waiting with (sched | draining | ⟨queueLen, member, -⟩) | ⟨-, member⟩
  · exact .inl sched
  · exact .inr (by simp [draining])
  · simp [through] at member
  · simp [through] at member

theorem awake_append (skb : Skb) :
    Awake { s with rxQueue := s.rxQueue ++ [skb], completions := s.completions ++ [.appended] } ↔
      Awake s ∧ NoOverlap s (.append skb) := by
  cases queue : s.rxQueue with
  | nil => simp [Awake, NoOverlap, queue]
  | cons first rest =>
      have same : Roused { s with
          rxQueue := s.rxQueue ++ [skb], completions := s.completions ++ [.appended] } ↔
            Roused s := by
        simp [Roused, Announced]
      simp only [Awake, NoOverlap, queue] at same ⊢
      simp only [same]
      by_cases member : Completion.appended ∈ s.completions
      · simpa [member] using Or.inl
      · simp [member]

/-- The completion that takes a step, and the others. -/
theorem split_completions {completions : List Completion} {completion : Completion}
    (here : completions[i]? = some completion) : ∃ front back,
      completions = front ++ completion :: back ∧
      (∀ new, completions.set i new = front ++ new :: back) ∧
      completions.eraseIdx i = front ++ back := by
  induction completions generalizing i with
  | nil => simp at here
  | cons first others ih =>
      cases i with
      | zero =>
          simp only [List.getElem?_cons_zero, Option.some.injEq] at here
          subst here
          exact ⟨[], others, rfl, fun _ => rfl, rfl⟩
      | succ i =>
          simp only [List.getElem?_cons_succ] at here
          obtain ⟨front, back, split, set, erase⟩ := ih here
          refine ⟨first :: front, back, by simp [← split], fun new => ?_, ?_⟩
          · simp [set new]
          · simp [erase]

theorem announced_counted {front back : List Completion} (queueLen : Nat) :
    Announced (front ++ .counted queueLen :: back) ↔
      queueLen ≤ 1 ∨ Announced (front ++ back) := by
  simp only [Announced, List.mem_append, List.mem_cons, Completion.counted.injEq]
  constructor
  · rintro ⟨other, before | rfl | after, short⟩
    · exact .inr ⟨other, .inl before, short⟩
    · exact .inl short
    · exact .inr ⟨other, .inr after, short⟩
  · rintro (short | ⟨other, before | after, short⟩)
    · exact ⟨queueLen, .inr (.inl rfl), short⟩
    · exact ⟨other, .inl before, short⟩
    · exact ⟨other, .inr (.inr after), short⟩

theorem announced_appended {front back : List Completion} :
    Announced (front ++ .appended :: back) ↔ Announced (front ++ back) := by
  simp [Announced]

/-- A completion that reads 1 schedules the tasklet; one that reads more is not needed. -/
theorem awake_count : Awake (countQueue s i) ↔ Awake s := by
  unfold countQueue
  split
  · rename_i here
    obtain ⟨front, back, split, set, -⟩ := split_completions here
    rw [set]
    refine imp_congr_right fun waiting => ?_
    have long : 0 < s.rxQueue.length := List.length_pos_iff.mpr waiting
    simp only [Roused, split, announced_counted, announced_appended]
    by_cases short : s.rxQueue.length ≤ 1
    · have single : s.rxQueue.length = 1 := by omega
      simp [single]
    · have several : s.rxQueue.length ≠ 1 := by omega
      simp [several, short]
  · rfl

theorem awake_schedule : Awake (scheduleTasklet s i) ↔ Awake s := by
  unfold scheduleTasklet
  split
  · rename_i queueLen here
    obtain ⟨front, back, split, -, erase⟩ := split_completions here
    rw [erase]
    refine imp_congr_right fun _ => ?_
    simp only [Roused, split, announced_counted]
    by_cases short : queueLen ≤ 1
    · simp [short]
    · simp [short]
  · rfl

theorem awake_drain : Awake (drainQueue s) ↔ Awake s := by
  unfold drainQueue
  split_ifs with draining
  · have roused : Roused s := .inr (.inl draining)
    cases queue : s.rxQueue with
    | nil => simp [Awake, queue]
    | cons skb rest => simp [Awake, Roused, draining]
  · rfl

theorem awake_step (steps : rxWakeStep s event = some next) :
    Awake next ↔ Awake s ∧ NoOverlap s event := by
  cases event with
  | append skb =>
      simp only [rxWakeStep, Option.some.injEq] at steps
      exact steps ▸ awake_append skb
  | count i =>
      simp only [rxWakeStep, Option.some.injEq] at steps
      simp [← steps, awake_count, NoOverlap]
  | schedule i =>
      simp only [rxWakeStep, Option.some.injEq] at steps
      simp [← steps, awake_schedule, NoOverlap]
  | begin =>
      simp only [rxWakeStep, Option.some.injEq] at steps
      subst steps
      split_ifs with scheduled
      · simp [Awake, Roused, scheduled.1, NoOverlap]
      · simp [NoOverlap]
  | dequeue =>
      simp only [rxWakeStep, Option.some.injEq] at steps
      simp [← steps, awake_drain, NoOverlap]
  | stop =>
      simp only [rxWakeStep, Option.some.injEq] at steps
      subst steps
      split_ifs with emptied
      · simp [Awake, Roused, emptied, NoOverlap]
      · simp [NoOverlap]

end Steps

/-! ## Every interleaving -/

section Runs

variable {Skb : Type u} {s final : RxWake Skb} {events rest : List (RxWakeEvent Skb)}

/-- What is left to do when no URB ends any more: the completions, and a tasklet that has
found the queue empty, return. -/
def Settling (events : List (RxWakeEvent Skb)) : Prop :=
  ∀ event ∈ events, match event with
    | .count _ | .schedule _ | .stop => True
    | .append _ | .begin | .dequeue => False

def settle : Nat → List (RxWakeEvent Skb)
  | 0 => [.stop]
  | n + 1 => .count 0 :: .schedule 0 :: settle n

theorem settle_settling (n : Nat) : Settling (settle n : List (RxWakeEvent Skb)) := by
  induction n with
  | zero => simp [settle, Settling]
  | succ n ih =>
      simp only [Settling, settle, List.forall_mem_cons, true_and]
      exact ih

theorem settling_eachStep (settling : Settling rest) :
    EachStep rxWakeStep NoOverlap s rest := by
  induction rest generalizing s with
  | nil => trivial
  | cons event rest ih =>
      simp only [Settling, List.forall_mem_cons] at settling
      refine ⟨?_, fun next _ => ih settling.2⟩
      cases event with
      | append skb => exact settling.1.elim
      | count i => trivial
      | schedule i => trivial
      | begin => trivial
      | dequeue => trivial
      | stop => trivial

theorem completions_first {completion : Completion} {others : List Completion}
    (split : s.completions = completion :: others) :
    (scheduleTasklet (countQueue s 0) 0).completions = others := by
  cases completion <;> simp [countQueue, scheduleTasklet, split]

theorem run_settle (s : RxWake Skb) : ∃ final,
    run rxWakeStep s (settle s.completions.length) = some final ∧ final.completions = [] ∧
      final.tasklet ≠ .emptied ∧ (Awake final ↔ Awake s) := by
  generalize through : s.completions.length = n
  induction n generalizing s with
  | zero =>
      have none : s.completions = [] := List.length_eq_zero_iff.mp through
      refine ⟨_, rfl, ?_, ?_, ?_⟩
      · split_ifs <;> exact none
      · split_ifs with emptied
        · simp
        · exact emptied
      · have back : rxWakeStep s .stop = some
            (if s.tasklet = .emptied then { s with tasklet := .idle } else s) := rfl
        simpa [NoOverlap] using awake_step back
  | succ n ih =>
      cases split : s.completions with
      | nil => simp [split] at through
      | cons completion others =>
          have left := completions_first split
          have fewer : (scheduleTasklet (countQueue s 0) 0).completions.length = n := by
            simpa [left, split] using through
          obtain ⟨final, reached, none, returned, awake⟩ := ih _ fewer
          refine ⟨final, ?_, none, returned, ?_⟩
          · simpa [settle, rxWakeStep] using reached
          · rw [awake, awake_schedule, awake_count]

/-- A buffer that no completion will announce stays when all have returned. -/
theorem awake_of_settles (served : ∀ rest, Settling rest → ∃ final,
    run rxWakeStep s rest = some final ∧ Served final) : Awake s := by
  obtain ⟨final, reached, none, returned, same⟩ := run_settle s
  obtain ⟨final', reached', served⟩ := served _ (settle_settling s.completions.length)
  rw [reached, Option.some.injEq] at reached'
  subst reached'
  rw [← same]
  intro waiting
  rcases served none waiting with sched | busy
  · exact .inl (.inl sched)
  · cases tasklet : final.tasklet with
    | idle => exact absurd tasklet busy
    | draining => exact .inl (.inr (.inl tasklet))
    | emptied => exact absurd tasklet returned

/-- No buffer is stranded, also when all completions have returned, exactly when no two
completions of a sleeping tasklet overlap. -/
theorem rx_wake_iff (events : List (RxWakeEvent Skb)) :
    (∀ rest, Settling rest → Throughout rxWakeStep Served rxWakeStart (events ++ rest)) ↔
      EachStep rxWakeStep NoOverlap (rxWakeStart : RxWake Skb) events := by
  have start : Awake (rxWakeStart : RxWake Skb) := by simp [Awake, rxWakeStart]
  have total : ∀ s : RxWake Skb, ∀ event, ∃ next, rxWakeStep s event = some next := by
    intro s event
    cases event <;> exact ⟨_, rfl⟩
  have returns : ∀ s, ∀ event ∈ events, True →
      ∃ next, rxWakeStep s event = some next ∧ True :=
    fun s event _ _ => (total s event).imp fun _ steps => ⟨steps, trivial⟩
  have precise : ∀ s next, ∀ event ∈ events, True → rxWakeStep s event = some next →
      (Awake next ↔ Awake s ∧ NoOverlap s event) :=
    fun s next event _ _ steps => awake_step steps
  have runs : ∃ s, run rxWakeStep (rxWakeStart : RxWake Skb) events = some s ∧ True :=
    run_total (fun _ => True) returns trivial
  obtain ⟨s, reached, -⟩ := runs
  have ends := final_iff_eachStep (fun _ => True) (fun _ _ _ _ _ _ => trivial) precise trivial
    reached
  constructor
  · intro served
    have awake : Awake s := by
      apply awake_of_settles
      intro rest settling
      obtain ⟨final, returned, good⟩ := (served rest settling).final
      rw [run_append, reached, Option.bind_some] at returned
      exact ⟨final, returned, good⟩
    exact (ends.1 awake).2
  · intro steps rest settling
    have all := steps.append reached (settling_eachStep settling)
    apply all.throughout Awake
    · exact fun s awake => awake.served
    · intro s event awake allowed
      obtain ⟨next, step⟩ := total s event
      exact ⟨next, step, (awake_step step).2 ⟨awake, allowed⟩⟩
    · exact start

end Runs

/-- Both completions append before either reads the length. -/
def overlapping : List (RxWakeEvent Nat) :=
  [.append 0, .append 1, .count 0, .count 1, .schedule 0, .schedule 0]

theorem rx_stranded : ¬ Throughout rxWakeStep Served rxWakeStart overlapping := by
  intro throughout
  obtain ⟨final, reached, served⟩ := throughout.final
  have ends : run rxWakeStep rxWakeStart overlapping = some ⟨[0, 1], [], false, .idle⟩ := rfl
  rw [ends, Option.some.injEq] at reached
  subst reached
  have awake := served rfl (by simp)
  simp at awake

end Smartchip.Hif
