import Mathlib.Data.List.Count
import Mathlib.Data.List.Nodup
import Smartchip.Rx.ReorderPool

/-!
# Order and delivery over whole runs of the reorder engine

The results below quantify over every list of steps.  They are read off the
window behind the control block, which each returning step moves by one step of
`Foundation.Window`.
-/

namespace Smartchip.Rx

open Smartchip.Foundation

universe u

variable {α : Type u}

/-! ## The window invariant -/

structure WindowInvariant (ba : RecvBaCtrl α) : Prop where
  size : ba.wsizeB = 64
  increasing : (ba.pendingReorderQueue.list.map fun node =>
    seqOffset ba.indicateSeq node.seqNum).Pairwise (· < ·)
  distinct : (ba.pendingReorderQueue.list.map (·.seqNum)).Nodup
  inside : ba.indicateSeq ≠ 0xFFFF → ∀ node ∈ ba.pendingReorderQueue.list,
    0 < seqOffset ba.indicateSeq node.seqNum ∧
      seqOffset ba.indicateSeq node.seqNum < ba.wsizeB.toNat
  head : ∀ node ∈ ba.pendingReorderQueue.list.head?,
    node.seqNum ≠ ba.indicateSeq

private theorem map_seqOffset_of_tracks {indicateSeq : UInt16} {next : ℤ}
    (hindicate : Numbers indicateSeq next)
    {nodes : List (RxReorderQueue α)} {held : List (ℤ × α)}
    (tracks : List.Forall₂ Tracks nodes held)
    (inside : ∀ item ∈ held, next < item.1 ∧ item.1 < next + 64) :
    nodes.map (fun node => seqOffset indicateSeq node.seqNum) =
      held.map fun item => item.1 - next := by
  induction tracks with
  | nil => rfl
  | @cons node item nodes held hnode hnodes ih =>
      have hitem := inside item (by simp)
      have hoffset : seqOffset indicateSeq node.seqNum = item.1 - next :=
        seqOffset_of_numbers hindicate hnode.1 hitem.1.le (by omega)
      simp only [List.map_cons, hoffset]
      rw [ih fun found member => inside found (by simp [member])]

theorem InSession.windowInvariant {ba : RecvBaCtrl α}
    {session : Option (Window α)} (h : InSession ba session) :
    WindowInvariant ba := by
  cases session with
  | none =>
      have hlist := Idle.pending h
      exact ⟨Idle.size h, by simp [hlist], by simp [hlist], by simp [hlist],
        by simp [hlist]⟩
  | some window =>
      have sim : Simulates ba window := h
      have hmap := map_seqOffset_of_tracks sim.indicate sim.pending
        sim.valid.inside
      have inside : ∀ node ∈ ba.pendingReorderQueue.list,
          0 < seqOffset ba.indicateSeq node.seqNum ∧
            seqOffset ba.indicateSeq node.seqNum < 64 := by
        intro node member
        have found : seqOffset ba.indicateSeq node.seqNum ∈
            window.held.map fun item => item.1 - window.next := by
          rw [← hmap]
          exact List.mem_map_of_mem member
        obtain ⟨item, hitem, heq⟩ := List.mem_map.mp found
        have := sim.valid.inside item hitem
        omega
      have increasing : (ba.pendingReorderQueue.list.map fun node =>
          seqOffset ba.indicateSeq node.seqNum).Pairwise (· < ·) := by
        have sorted := sim.valid.sorted
        rw [List.pairwise_map] at sorted
        rw [hmap, List.pairwise_map]
        exact sorted.imp fun less => by omega
      refine ⟨sim.size, increasing, ?_, ?_, ?_⟩
      · rw [List.pairwise_map] at increasing
        rw [List.Nodup, List.pairwise_map]
        apply increasing.imp
        intro first second less same
        rw [same] at less
        exact lt_irrefl _ less
      · intro _
        rw [sim.size]
        exact inside
      · intro node member same
        have hpositive := (inside node (List.mem_of_mem_head? member)).1
        rw [same] at hpositive
        simp [seqOffset] at hpositive

/--
After any number of steps the pending queue is in order, has no repetition,
lies inside the window and holds nothing back; and the engine returns from
every step as long as no session has been torn down.
-/
theorem reorder_window_invariant (kzalloc : Nat → Bool) (waitTimeout : UInt8)
    (steps : List (ReorderStep α)) :
    (∀ ba, reorderRun (enabledCtl kzalloc waitTimeout) steps = some ba →
      WindowInvariant ba) ∧
    ((∀ i < baReorderQueueNum, kzalloc i = true) →
      (∀ step ∈ steps, step ≠ .reinit) →
        ∃ ba, reorderRun (enabledCtl kzalloc waitTimeout) steps =
          some ba) := by
  constructor
  · intro ba reached
    obtain ⟨session, hsession⟩ := reachable_inSession reached
    exact hsession.windowInvariant
  · intro allocated settled
    exact reorderRun_returns waitTimeout allocated settled

/-! ## The reorder timer -/

theorem reachable_armed {kzalloc : Nat → Bool} {waitTimeout : UInt8}
    {steps : List (ReorderStep α)} {ba : RecvBaCtrl α}
    (reached : reorderRun (enabledCtl kzalloc waitTimeout) steps = some ba) :
    Armed ba := by
  have kept : ∀ state next, ∀ step ∈ steps,
      ((∃ session, InSession state session) ∧ Armed state) →
        reorderStep state step = some next →
          (∃ session, InSession next session) ∧ Armed next := by
    rintro state next step - ⟨⟨session, hsession⟩, armed⟩ hstep
    exact ⟨⟨_, reorderStep_inSession hsession hstep⟩,
      reorderStep_armed hsession armed hstep⟩
  have start : Armed (enabledCtl kzalloc waitTimeout : RecvBaCtrl α) :=
    fun queued => absurd rfl queued
  exact (run_invariant _ kept
    ⟨⟨none, enabledCtl_inSession kzalloc waitTimeout⟩, start⟩ reached).2

/--
No frame waits in the queue without a timer, whatever numbers arrive and
however the timer and the re-initialisations fall between them.
-/
theorem reorder_timer_armed (kzalloc : Nat → Bool) (waitTimeout : UInt8)
    (steps : List (ReorderStep α)) :
    (∀ ba, reorderRun (enabledCtl kzalloc waitTimeout) steps = some ba →
      ba.pendingReorderQueue.list ≠ [] → ba.reorderingCtrlTimer = true) ∧
    ((∀ i < baReorderQueueNum, kzalloc i = true) →
      (∀ step ∈ steps, step ≠ .reinit) →
        ∃ ba, reorderRun (enabledCtl kzalloc waitTimeout) steps =
          some ba) := by
  constructor
  · intro ba reached
    exact reachable_armed reached
  · intro allocated settled
    exact reorderRun_returns waitTimeout allocated settled

/-! ## Exactly-once delivery in order -/

/--
The control block beside a counter that unrolls `indicate_seq`, and the
unrolled number that each buffer had when it arrived.
-/
structure LiftedCtl (α : Type u) where
  ba : RecvBaCtrl α
  counter : ℤ
  numbers : List (α × ℤ)

def startSeq (ba : RecvBaCtrl α) : ReorderStep α → UInt16
  | .frame seq _ =>
      if ba.indicateSeq = 0xFFFF then seqField seq else ba.indicateSeq
  | _ => ba.indicateSeq

def startCounter (lifted : LiftedCtl α) : ReorderStep α → ℤ
  | .frame seq _ =>
      if lifted.ba.indicateSeq = 0xFFFF then seq.toNat else lifted.counter
  | _ => lifted.counter

/-- The number of an arriving buffer is taken within 2048 of the counter. -/
def arrivalNumbers (lifted : LiftedCtl α) : ReorderStep α → List (α × ℤ)
  | .frame seq skb =>
      [(skb, liftNear 2048 (startCounter lifted (.frame seq skb)) seq.toNat)]
  | _ => []

/-- The counter moves forward by what the step adds to `indicate_seq`. -/
def liftedStep (lifted : LiftedCtl α) (step : ReorderStep α) :
    Option (LiftedCtl α) := do
  let ba ← reorderStep lifted.ba step
  some {
    ba
    counter := startCounter lifted step +
      seqOffset (startSeq lifted.ba step) ba.indicateSeq
    numbers := lifted.numbers ++ arrivalNumbers lifted step }

def liftedRun (ba : RecvBaCtrl α) (steps : List (ReorderStep α)) :
    Option (LiftedCtl α) :=
  run liftedStep ⟨ba, 0, []⟩ steps

structure Accounts [DecidableEq α] (lifted : LiftedCtl α)
    (session : Option (Window α)) (positions : List ℤ) : Prop where
  inSession : InSession lifted.ba session
  counter : ∀ window ∈ session, window.next = lifted.counter
  held : ∀ window ∈ session, ∀ item ∈ window.held,
    (item.2, item.1) ∈ lifted.numbers
  fresh : session = none → positions = []
  uploaded : List.Forall₂ (fun skb position => (skb, position) ∈ lifted.numbers)
    lifted.ba.uploaded positions
  increasing : positions.Pairwise (· < ·)
  below : ∀ window ∈ session, ∀ position ∈ positions, position < window.next
  conserved : ∀ skb,
    lifted.ba.uploaded.count skb + lifted.ba.freed.count (some skb) +
      (pendingSkbs lifted.ba).count (some skb) =
        (lifted.numbers.map Prod.fst).count skb

section Step

variable [DecidableEq α] {lifted : LiftedCtl α} {session : Option (Window α)}
  {positions : List ℤ} {ba' : RecvBaCtrl α}

private theorem count_map_some_snd (items : List (ℤ × α)) (skb : α) :
    (items.map fun item => some item.2).count (some skb) =
      (items.map Prod.snd).count skb := by
  rw [← List.count_map_of_injective _ some (Option.some_injective α),
    List.map_map]
  rfl

private theorem Accounts.extend (h : Accounts lifted session positions)
    {before after : Window α} {out : List (ℤ × α)} {refused : List α}
    {taken : Nat} {step : ReorderStep α}
    (effect : Effect lifted.ba ba' after out refused taken)
    (handout : Window.Handout 64 before after out)
    (close : after.next < before.next + 4096)
    (hcounter : startCounter lifted step = before.next)
    (hseq : Numbers (startSeq lifted.ba step) before.next)
    (hbelow : ∀ position ∈ positions, position < before.next)
    (known : ∀ item ∈ out ++ after.held, (item.2, item.1) ∈
      lifted.numbers ++ arrivalNumbers lifted step)
    (fate : ∀ skb, (out.map Prod.snd).count skb + refused.count skb +
      (after.held.map Prod.snd).count skb =
        (pendingSkbs lifted.ba).count (some skb) +
          ((arrivalNumbers lifted step).map Prod.fst).count skb) :
    Accounts
      ⟨ba', startCounter lifted step +
          seqOffset (startSeq lifted.ba step) ba'.indicateSeq,
        lifted.numbers ++ arrivalNumbers lifted step⟩
      (some after) (positions ++ out.map Prod.fst) := by
  have hmoved : seqOffset (startSeq lifted.ba step) ba'.indicateSeq =
      after.next - before.next :=
    seqOffset_of_numbers hseq effect.simulates.indicate handout.forward
      (by omega)
  have hheld := effect.simulates.pendingSkbs_eq
  refine {
    inSession := effect.simulates
    counter := ?_
    held := ?_
    fresh := by simp
    uploaded := ?_
    increasing := ?_
    below := ?_
    conserved := ?_ }
  · intro window member
    obtain rfl : after = window := Option.some.inj member
    simp only [hmoved, hcounter]
    omega
  · intro window member item inside
    obtain rfl : after = window := Option.some.inj member
    exact known item (List.mem_append_right _ inside)
  · rw [effect.uploaded]
    apply List.rel_append
    · exact h.uploaded.imp fun skb position member =>
        List.mem_append_left _ member
    · rw [List.forall₂_map_left_iff, List.forall₂_map_right_iff,
        List.forall₂_same]
      exact fun item member => known item (List.mem_append_left _ member)
  · rw [List.pairwise_append]
    refine ⟨h.increasing, handout.ordered, ?_⟩
    intro position member other found
    obtain ⟨item, hitem, rfl⟩ := List.mem_map.mp found
    exact (hbelow position member).trans_le (handout.between item hitem).1
  · intro window member position found
    obtain rfl : after = window := Option.some.inj member
    rcases List.mem_append.mp found with found | found
    · exact (hbelow position found).trans_le handout.forward
    · obtain ⟨item, hitem, rfl⟩ := List.mem_map.mp found
      exact (handout.between item hitem).2
  · intro skb
    have hconserved := h.conserved skb
    have hfate := fate skb
    have hpending : (pendingSkbs ba').count (some skb) =
        (after.held.map Prod.snd).count skb := by
      rw [hheld, count_map_some_snd]
    have hrefused : (refused.map some).count (some skb) =
        refused.count skb :=
      List.count_map_of_injective _ some (Option.some_injective α) skb
    simp only [effect.uploaded, effect.freed, List.map_append,
      List.count_append, hpending, hrefused]
    omega

private theorem Accounts.start (h : Accounts lifted session positions)
    (seq : BitVec 12) (skb : α) :
    startCounter lifted (.frame seq skb) = (openWindow session seq).next ∧
      Numbers (startSeq lifted.ba (.frame seq skb))
        (openWindow session seq).next ∧
      (∀ position ∈ positions, position < (openWindow session seq).next) ∧
      (∀ item ∈ (openWindow session seq).held,
        (item.2, item.1) ∈ lifted.numbers) ∧
      (pendingSkbs lifted.ba) =
        (openWindow session seq).held.map fun item => some item.2 := by
  have hsession := h.inSession
  cases session with
  | none =>
      have idle : Idle lifted.ba := hsession
      refine ⟨?_, ?_, ?_, ?_, ?_⟩
      · simp [startCounter, idle.indicate, openWindow]
      · simpa [startSeq, idle.indicate, openWindow] using
          (idle.open seq).indicate
      · simp [h.fresh rfl]
      · simp [openWindow]
      · simp [pendingSkbs, idle.pending, openWindow]
  | some window =>
      have sim : Simulates lifted.ba window := hsession
      have hset := sim.indicate.ne_unset
      refine ⟨?_, ?_, h.below window rfl, h.held window rfl,
        sim.pendingSkbs_eq⟩
      · simpa [startCounter, hset, openWindow] using (h.counter window rfl).symm
      · simpa [startSeq, hset, openWindow] using sim.indicate

theorem Accounts.frame (h : Accounts lifted session positions)
    {seq : BitVec 12} {skb : α} {lifted' : LiftedCtl α}
    (hstep : liftedStep lifted (.frame seq skb) = some lifted') :
    ∃ session positions, Accounts lifted' session positions := by
  unfold liftedStep at hstep
  obtain ⟨ba', hba, hrest⟩ := Option.bind_eq_some_iff.mp hstep
  rw [Option.some.injEq] at hrest
  subst lifted'
  obtain ⟨hcounter, hseq, hbelow, hknown, hpending⟩ := h.start seq skb
  have valid := h.inSession.openWindow_valid seq
  have hperm := frameArrival_perm (openWindow session seq) seq skb
  have harrival : arrivalNumbers lifted (.frame seq skb) =
      [(skb, framePosition (openWindow session seq).next seq)] := by
    rw [arrivalNumbers, hcounter]
    rfl
  refine ⟨_, _, h.extend (frame_effect h.inSession hba)
    (frameArrival_handout valid seq skb) ?_ hcounter hseq hbelow ?_ ?_⟩
  · have := frameArrival_next_le valid seq skb
    omega
  · intro item member
    rw [harrival]
    rw [hperm.mem_iff] at member
    split at member
    · rcases List.mem_cons.mp member with rfl | member
      · simp
      · exact List.mem_append_left _ (hknown item member)
    · exact List.mem_append_left _ (hknown item member)
  · intro other
    rw [harrival, hpending, count_map_some_snd]
    have hcount := (hperm.map Prod.snd).count_eq other
    rw [List.map_append, List.count_append] at hcount
    cases hkept : (frameArrival (openWindow session seq) seq skb).2.2 with
    | false =>
        simp only [hkept, Bool.false_eq_true, if_false] at hcount ⊢
        simp only [List.map_cons, List.map_nil]
        omega
    | true =>
        simp only [hkept, if_true, List.map_cons, List.count_cons] at hcount ⊢
        simp only [List.count_nil, List.map_nil]
        omega

theorem Accounts.timeout (h : Accounts lifted session positions)
    {lifted' : LiftedCtl α}
    (hstep : liftedStep lifted .timeout = some lifted') :
    ∃ session positions, Accounts lifted' session positions := by
  unfold liftedStep at hstep
  obtain ⟨ba', hba, hrest⟩ := Option.bind_eq_some_iff.mp hstep
  rw [Option.some.injEq] at hrest
  subst lifted'
  have hsession := h.inSession
  cases session with
  | none =>
      have hnext := reorderStep_inSession hsession hba
      rw [timeout_idle hsession, Option.some.injEq] at hba
      subst ba'
      have hnone : positions = [] := h.fresh rfl
      refine ⟨none, [], hnext, by simp, by simp, fun _ => rfl, ?_, by simp,
        by simp, ?_⟩
      · have huploaded := h.uploaded
        rw [hnone] at huploaded
        rw [List.forall₂_nil_right_iff] at huploaded ⊢
        exact huploaded
      · intro skb
        simpa [arrivalNumbers, pendingSkbs] using h.conserved skb
  | some window =>
      have sim : Simulates lifted.ba window := hsession
      have hcounter := h.counter window rfl
      have hskip := Window.skip_append window
      refine ⟨_, _, h.extend (timeout_effect hsession hba).1
        (Window.skip_handout sim.valid) ?_ hcounter.symm sim.indicate
        (h.below window rfl) ?_ ?_⟩
      · have := Window.skip_next_le (by omega) sim.valid
        omega
      · intro item member
        rw [hskip] at member
        exact List.mem_append_left _ (h.held window rfl item member)
      · intro skb
        have hcount := congrArg (fun items => (items.map Prod.snd).count skb)
          hskip
        simp only [List.map_append, List.count_append] at hcount
        rw [sim.pendingSkbs_eq, count_map_some_snd]
        simp only [arrivalNumbers, List.count_nil, List.map_nil]
        omega

theorem Accounts.addba (h : Accounts lifted session positions)
    {waitTimeout : UInt8} {lifted' : LiftedCtl α}
    (hstep : liftedStep lifted (.addba waitTimeout) = some lifted') :
    ∃ session positions, Accounts lifted' session positions := by
  have hba : reorderStep lifted.ba (.addba waitTimeout) =
      some (baCtlEnable waitTimeout lifted.ba) := rfl
  have hnext : InSession (baCtlEnable waitTimeout lifted.ba) session :=
    reorderStep_inSession h.inSession hba
  have hsame : lifted' =
      ⟨baCtlEnable waitTimeout lifted.ba, lifted.counter, lifted.numbers⟩ := by
    simp only [liftedStep, reorderStep, Option.bind_eq_bind, Option.bind_some,
      Option.some.injEq] at hstep
    rw [← hstep]
    simp [startCounter, startSeq, seqOffset, arrivalNumbers, baCtlEnable]
  rw [hsame]
  exact ⟨session, positions, hnext, h.counter, h.held, h.fresh, h.uploaded,
    h.increasing, h.below, h.conserved⟩

theorem Accounts.counter_emod (h : Accounts lifted session positions)
    (set : lifted.ba.indicateSeq ≠ 0xFFFF) :
    (lifted.ba.indicateSeq.toNat : ℤ) = lifted.counter % 4096 := by
  have hsession := h.inSession
  cases session with
  | none => exact absurd (Idle.indicate hsession) set
  | some window =>
      rw [← h.counter window rfl]
      exact Simulates.indicate hsession

theorem Accounts.step (h : Accounts lifted session positions)
    {step : ReorderStep α} (settled : step ≠ .reinit) {lifted' : LiftedCtl α}
    (hstep : liftedStep lifted step = some lifted') :
    ∃ session positions, Accounts lifted' session positions := by
  cases step with
  | frame seq skb => exact h.frame hstep
  | timeout => exact h.timeout hstep
  | reinit => contradiction
  | addba waitTimeout => exact h.addba hstep

end Step

theorem enabledCtl_accounts [DecidableEq α] (kzalloc : Nat → Bool)
    (waitTimeout : UInt8) :
    Accounts (⟨enabledCtl kzalloc waitTimeout, 0, []⟩ : LiftedCtl α) none []
    where
  inSession := enabledCtl_inSession kzalloc waitTimeout
  counter := by simp
  held := by simp
  fresh := fun _ => rfl
  uploaded := List.Forall₂.nil
  increasing := List.Pairwise.nil
  below := by simp
  conserved := fun _ => rfl

theorem run_liftedStep_ba (lifted : LiftedCtl α)
    (steps : List (ReorderStep α)) :
    (run liftedStep lifted steps).map (·.ba) = reorderRun lifted.ba steps := by
  induction steps generalizing lifted with
  | nil => rfl
  | cons step steps ih =>
      simp only [run_cons, reorderRun, liftedStep]
      cases hstep : reorderStep lifted.ba step with
      | none => rfl
      | some ba => exact ih _

theorem run_liftedStep_numbers {lifted lifted' : LiftedCtl α}
    {steps : List (ReorderStep α)}
    (reached : run liftedStep lifted steps = some lifted') :
    lifted'.numbers.map Prod.fst =
      lifted.numbers.map Prod.fst ++ givenSkbs steps := by
  induction steps generalizing lifted with
  | nil =>
      rw [run_nil, Option.some.injEq] at reached
      subst lifted'
      simp [givenSkbs]
  | cons step steps ih =>
      rw [run_cons, Option.bind_eq_some_iff] at reached
      obtain ⟨next, hstep, hrest⟩ := reached
      unfold liftedStep at hstep
      obtain ⟨ba, -, hnext⟩ := Option.bind_eq_some_iff.mp hstep
      rw [Option.some.injEq] at hnext
      subst next
      rw [ih hrest]
      cases step <;> simp [givenSkbs, arrivalNumbers]

/--
Without a re-initialisation, every buffer given to the engine is uploaded once,
freed once or held by one node, the unrolled numbers of the uploads increase,
and the engine returns from every step.
-/
theorem reorder_exactly_once_in_order [DecidableEq α] (kzalloc : Nat → Bool)
    (waitTimeout : UInt8) (steps : List (ReorderStep α))
    (distinct : (givenSkbs steps).Nodup)
    (settled : ∀ step ∈ steps, step ≠ .reinit) :
    (∀ lifted, liftedRun (enabledCtl kzalloc waitTimeout) steps =
        some lifted →
      (lifted.ba.indicateSeq ≠ 0xFFFF →
        (lifted.ba.indicateSeq.toNat : ℤ) = lifted.counter % 4096) ∧
      (∀ skb ∈ givenSkbs steps,
        lifted.ba.uploaded.count skb + lifted.ba.freed.count (some skb) +
          (pendingSkbs lifted.ba).count (some skb) = 1) ∧
      ∃ positions,
        List.Forall₂ (fun skb position => (skb, position) ∈ lifted.numbers)
          lifted.ba.uploaded positions ∧
        positions.Pairwise (· < ·)) ∧
    ((∀ i < baReorderQueueNum, kzalloc i = true) →
      ∃ lifted, liftedRun (enabledCtl kzalloc waitTimeout) steps =
        some lifted) := by
  constructor
  · intro lifted reached
    obtain ⟨session, positions, account⟩ := run_invariant
      (fun lifted => ∃ session positions, Accounts lifted session positions)
      (fun state next step member ⟨session, positions, hstate⟩ hstep =>
        hstate.step (settled step member) hstep)
      ⟨none, [], enabledCtl_accounts kzalloc waitTimeout⟩ reached
    refine ⟨account.counter_emod, ?_, positions, account.uploaded,
      account.increasing⟩
    intro skb given
    have hnumbers := run_liftedStep_numbers reached
    rw [account.conserved skb, hnumbers, List.map_nil, List.nil_append]
    exact List.count_eq_one_of_mem distinct given
  · intro allocated
    obtain ⟨ba, hrun⟩ := reorderRun_returns waitTimeout allocated settled
    have hmap := run_liftedStep_ba ⟨enabledCtl kzalloc waitTimeout, 0, []⟩ steps
    rw [hrun] at hmap
    obtain ⟨lifted, hlifted, -⟩ := Option.map_eq_some_iff.mp hmap
    exact ⟨lifted, hlifted⟩

theorem reorder_exactly_once_in_order_wrap :
    ∃ lifted, liftedRun (enabledCtl (fun _ => true) 50)
        [.frame 4094 'a', .frame 1 'b', .frame 4095 'c', .frame 1 'd',
          .timeout, .frame 4094 'e', .frame 200 'f'] = some lifted ∧
      ∀ skb ∈ ['a', 'b', 'c', 'd', 'e', 'f'],
        lifted.ba.uploaded.count skb + lifted.ba.freed.count (some skb) +
          (pendingSkbs lifted.ba).count (some skb) = 1 := by
  have applied := reorder_exactly_once_in_order (fun _ => true) 50
    [.frame 4094 'a', .frame 1 'b', .frame 4095 'c', .frame 1 'd',
      .timeout, .frame 4094 'e', .frame 200 'f'] (by decide) (by decide)
  obtain ⟨lifted, hrun⟩ := applied.2 (fun _ _ => rfl)
  exact ⟨lifted, hrun, (applied.1 lifted hrun).2.1⟩

end Smartchip.Rx
