import Mathlib.Data.List.TakeWhile
import Smartchip.Rx.ReorderSteps

/-!
# The node pool and the teardown paths

Every traffic identifier owns `BA_REORDER_QUEUE_NUM` nodes that move between
its free list and its pending queue.  This module says which steps keep them,
and what the two teardown paths do with the buffers they find.
-/

namespace Smartchip.Rx

open Smartchip.Foundation

universe u

variable {α : Type u}

/-! ## Reachable control blocks -/

def enabledCtl (kzalloc : Nat → Bool) (waitTimeout : UInt8) : RecvBaCtrl α :=
  baCtlEnable waitTimeout (baCtlInit kzalloc)

theorem enabledCtl_inSession (kzalloc : Nat → Bool) (waitTimeout : UInt8) :
    InSession (enabledCtl kzalloc waitTimeout : RecvBaCtrl α) none :=
  ⟨rfl, rfl, rfl, rfl⟩

theorem reachable_inSession {kzalloc : Nat → Bool} {waitTimeout : UInt8}
    {steps : List (ReorderStep α)} {ba : RecvBaCtrl α}
    (reached : reorderRun (enabledCtl kzalloc waitTimeout) steps = some ba) :
    ∃ session, InSession ba session := by
  refine run_invariant (fun ba => ∃ session, InSession ba session) ?_
    ⟨none, enabledCtl_inSession kzalloc waitTimeout⟩ reached
  rintro state next step - ⟨session, hsession⟩ hstep
  exact ⟨_, reorderStep_inSession hsession hstep⟩

/-! ## The node pool of one session -/

def nodeCount (ba : RecvBaCtrl α) : Nat :=
  ba.freeOrderQueue.list.length + ba.pendingReorderQueue.list.length

theorem InSession.pool_ne_nil {ba : RecvBaCtrl α}
    {session : Option (Window α)} (h : InSession ba session)
    (full : nodeCount ba = 64) : ba.freeOrderQueue.list ≠ [] := by
  have few := h.pending_lt
  unfold nodeCount at full
  intro empty
  rw [empty, List.length_nil] at full
  omega

theorem InSession.openWindow_held {ba : RecvBaCtrl α}
    {session : Option (Window α)} (h : InSession ba session)
    (seq : BitVec 12) :
    ba.pendingReorderQueue.list.length =
      (openWindow session seq).held.length := by
  cases session with
  | none => rw [Idle.pending h]; rfl
  | some window => exact Simulates.pending_length h

theorem reorderStep_nodeCount {ba ba' : RecvBaCtrl α}
    {session : Option (Window α)} (h : InSession ba session)
    {step : ReorderStep α} (settled : step ≠ .reinit)
    (hstep : reorderStep ba step = some ba') :
    nodeCount ba' = nodeCount ba := by
  unfold nodeCount
  cases step with
  | frame seq skb =>
      have effect := frame_effect h hstep
      have hpool := effect.poolLength
      have hafter := effect.simulates.pending_length
      have hbefore := h.openWindow_held seq
      have hperm :=
        (frameArrival_perm (openWindow session seq) seq skb).length_eq
      rw [List.length_append] at hperm
      cases hkept : (frameArrival (openWindow session seq) seq skb).2.2 with
      | false =>
          simp only [hkept, Bool.false_eq_true, if_false] at hpool hperm
          omega
      | true =>
          simp only [hkept, if_true, List.length_cons] at hpool hperm
          omega
  | timeout =>
      cases session with
      | none =>
          rw [timeout_idle h, Option.some.injEq] at hstep
          subst ba'
          rfl
      | some window =>
          have effect := (timeout_effect h hstep).1
          have hpool := effect.poolLength
          have hafter := effect.simulates.pending_length
          have hbefore := Simulates.pending_length h
          have hlength := congrArg List.length (Window.skip_append window)
          rw [List.length_append] at hlength
          omega
  | reinit => contradiction
  | addba waitTimeout =>
      rw [reorderStep, Option.some.injEq] at hstep
      subst ba'
      rfl

theorem foldl_wfEnqueTail {ι : Type u} (items : List ι) (queue : WfQue ι) :
    items.foldl wfEnqueTail queue =
      ⟨queue.list ++ items, queue.cnt + UInt32.ofNat items.length⟩ := by
  induction items generalizing queue with
  | nil => simp
  | cons item items ih =>
      rw [List.foldl_cons, ih]
      simp only [wfEnqueTail, List.append_assoc, List.singleton_append,
        List.length_cons, UInt32.ofNat_add, WfQue.mk.injEq, true_and]
      grind

theorem length_takeWhile_range_iff (kzalloc : Nat → Bool) (n : Nat) :
    ((List.range n).takeWhile kzalloc).length = n ↔
      ∀ i < n, kzalloc i = true := by
  have hiff : ((List.range n).takeWhile kzalloc).length = n ↔
      (List.range n).takeWhile kzalloc = List.range n := by
    constructor
    · intro hlength
      apply (List.takeWhile_prefix kzalloc).eq_of_length
      rw [hlength, List.length_range]
    · intro heq
      rw [heq, List.length_range]
  rw [hiff, List.takeWhile_eq_self_iff]
  simp only [List.mem_range]

theorem baCtlInit_freeOrderQueue (kzalloc : Nat → Bool) :
    (baCtlInit kzalloc : RecvBaCtrl α).freeOrderQueue =
      ⟨((List.range baReorderQueueNum).takeWhile kzalloc).map
          fun i => ⟨i, 0, none⟩,
        UInt32.ofNat
          ((List.range baReorderQueueNum).takeWhile kzalloc).length⟩ := by
  simp [baCtlInit, foldl_wfEnqueTail]

theorem baCtlInit_nodeCount (kzalloc : Nat → Bool) :
    nodeCount (baCtlInit kzalloc : RecvBaCtrl α) = 64 ↔
      ∀ i < baReorderQueueNum, kzalloc i = true := by
  rw [← length_takeWhile_range_iff, nodeCount, baCtlInit_freeOrderQueue,
    List.length_map]
  rfl

theorem reorderRun_returns {kzalloc : Nat → Bool} (waitTimeout : UInt8)
    (allocated : ∀ i < baReorderQueueNum, kzalloc i = true)
    {steps : List (ReorderStep α)}
    (settled : ∀ step ∈ steps, step ≠ .reinit) :
    ∃ ba, reorderRun (enabledCtl kzalloc waitTimeout) steps = some ba := by
  have returns : ∀ (ba : RecvBaCtrl α), ∀ step ∈ steps,
      ((∃ session, InSession ba session) ∧ nodeCount ba = 64) →
        ∃ ba', reorderStep ba step = some ba' ∧
          (∃ session, InSession ba' session) ∧ nodeCount ba' = 64 := by
    rintro ba step member ⟨⟨session, hsession⟩, full⟩
    have hreturns : ∃ ba', reorderStep ba step = some ba' := by
      cases step with
      | frame seq skb =>
          exact frame_returns hsession seq skb (hsession.pool_ne_nil full)
      | timeout => exact timeout_returns hsession
      | reinit => exact ⟨_, rfl⟩
      | addba waitTimeout => exact ⟨_, rfl⟩
    obtain ⟨ba', hstep⟩ := hreturns
    refine ⟨ba', hstep, ⟨_, reorderStep_inSession hsession hstep⟩, ?_⟩
    rw [reorderStep_nodeCount hsession (settled step member) hstep, full]
  obtain ⟨ba, hrun, -⟩ := run_total _ returns
    ⟨⟨none, enabledCtl_inSession kzalloc waitTimeout⟩,
      (baCtlInit_nodeCount kzalloc).mpr allocated⟩
  exact ⟨ba, hrun⟩

/-! ## Which steps keep the pool -/

def seqOffset (indicateSeq seqNum : UInt16) : ℤ :=
  ((seqNum.toNat : ℤ) - indicateSeq.toNat) % 4096

structure PoolKept (ba : RecvBaCtrl α) : Prop where
  nodes : ba.freeOrderQueue.list.length +
    ba.pendingReorderQueue.list.length = baReorderQueueNum
  counter : ba.freeOrderQueue.cnt.toNat = ba.freeOrderQueue.list.length

/--
A frame after which nothing is handed to `upload_func`: an expected number is
known, the frame does not carry it, and the frame does not lie so far beyond
the window that the first waiting frame falls out of it.
-/
def HoldsBack (ba : RecvBaCtrl α) (seq : BitVec 12) : Prop :=
  ba.indicateSeq ≠ 0xFFFF ∧
    seqOffset ba.indicateSeq (seqField seq) ≠ 0 ∧
    (seqOffset ba.indicateSeq (seqField seq) < 64 ∨
      2048 ≤ seqOffset ba.indicateSeq (seqField seq) ∨
      ∀ node ∈ ba.pendingReorderQueue.list.head?,
        seqOffset ba.indicateSeq (seqField seq) <
          seqOffset ba.indicateSeq node.seqNum + 63)

theorem seqOffset_of_numbers {indicateSeq seqNum : UInt16} {next position : ℤ}
    (hindicate : Numbers indicateSeq next) (hseq : Numbers seqNum position)
    (lower : next ≤ position) (upper : position - next < 4096) :
    seqOffset indicateSeq seqNum = position - next := by
  unfold Numbers at hindicate hseq
  unfold seqOffset
  omega

/-- The window moved behind `position` leaves the head of the pending queue waiting. -/
theorem head_ahead_iff {ba : RecvBaCtrl α} {window : Window α}
    (sim : Simulates ba window) (position : ℤ) :
    (∀ item ∈ window.held.head?, position - 64 + 1 < item.1) ↔
      ∀ node ∈ ba.pendingReorderQueue.list.head?,
        position - window.next < seqOffset ba.indicateSeq node.seqNum + 63 := by
  have htracks := sim.pending
  have inside := sim.valid.inside
  cases hheld : window.held with
  | nil =>
      rw [hheld, List.forall₂_nil_right_iff] at htracks
      simp [htracks]
  | cons item rest =>
      rw [hheld] at htracks inside
      obtain ⟨node, nodes, hnode, -, hlist⟩ :=
        List.forall₂_cons_right_iff.mp htracks
      have hitem := inside item (by simp)
      have hoffset := seqOffset_of_numbers sim.indicate hnode.1
        hitem.1.le (by omega)
      simp only [List.head?_cons, Option.mem_def, Option.some.injEq,
        forall_eq', hlist, hoffset]
      omega

theorem frame_out_eq_nil {ba : RecvBaCtrl α} {session : Option (Window α)}
    (h : InSession ba session) (seq : BitVec 12) (skb : α) :
    (frameArrival (openWindow session seq) seq skb).2.1 = [] ↔
      HoldsBack ba seq := by
  cases session with
  | none =>
      have valid := h.openWindow_valid seq
      have hout := Window.arrive_out_eq_nil (by omega) valid
        (framePosition seq.toNat seq) skb
      rw [frameArrival]
      change (Window.arrive 64 (openWindow none seq)
        (framePosition seq.toNat seq) skb).2.1 = [] ↔ _
      rw [hout]
      simp [HoldsBack, Idle.indicate h, openWindow]
  | some window =>
      have sim : Simulates ba window := h
      have hseq := numbers_framePosition window.next seq
      have lower := framePosition_lower window.next seq
      have upper := framePosition_upper window.next seq
      have hindicate := sim.indicate
      have hout := Window.arrive_out_eq_nil (by omega) sim.valid
        (framePosition window.next seq) skb
      have hiff : (frameArrival window seq skb).2.1 = [] ↔ _ := hout
      change (frameArrival window seq skb).2.1 = [] ↔ _
      rw [hiff, head_ahead_iff sim, HoldsBack]
      have hset := hindicate.ne_unset
      by_cases known : window.next ≤ framePosition window.next seq
      · rw [seqOffset_of_numbers hindicate hseq known (by omega)]
        have hnear : ¬2048 ≤ framePosition window.next seq - window.next := by
          omega
        simp only [ne_eq, hset, not_false_eq_true, true_and, hnear, false_or]
        exact and_congr (by omega) (or_congr (by omega) Iff.rfl)
      · have hoffset : 2048 ≤
            seqOffset ba.indicateSeq (seqField seq) := by
          unfold Numbers at hindicate hseq
          unfold seqOffset
          omega
        have hnonzero : seqOffset ba.indicateSeq (seqField seq) ≠ 0 := by
          omega
        simp only [hset, hnonzero, hoffset, ne_eq, not_false_eq_true, true_or,
          or_true, and_true, iff_true]
        exact ⟨by omega, Or.inl (by omega)⟩

section Steps

variable {ba ba' : RecvBaCtrl α} {session : Option (Window α)}

private theorem counter_kept_iff {cnt : UInt32} {free taken out : Nat}
    (hcnt : cnt.toNat = free) (few : free ≤ 64) (htaken : taken ≤ free)
    (hout : out ≤ 64) :
    (cnt - UInt32.ofNat taken - UInt32.ofNat out).toNat =
        free - taken + out ↔ out = 0 := by
  have hbound : ∀ n ≤ 64, (UInt32.ofNat n).toNat = n := by
    intro n bound
    exact UInt32.toNat_ofNat_of_lt' (by simp only [UInt32.size]; omega)
  rw [UInt32.toNat_sub, UInt32.toNat_sub, hbound taken (by omega),
    hbound out hout, hcnt]
  omega

private theorem poolKept_iff_of_effect {window : Window α}
    {out : List (ℤ × α)} {refused : List α} {taken : Nat}
    (kept : PoolKept ba) (effect : Effect ba ba' window out refused taken)
    (nodes : nodeCount ba' = nodeCount ba)
    (enough : taken ≤ ba.freeOrderQueue.list.length) :
    PoolKept ba' ↔ out = [] := by
  have hlength := effect.poolLength
  have hcnt := effect.poolCnt
  have htotal : nodeCount ba = 64 := kept.nodes
  have htotal' : nodeCount ba' = 64 := nodes.trans htotal
  have few : ba.freeOrderQueue.list.length ≤ 64 := by
    unfold nodeCount at htotal
    omega
  have few' : ba'.freeOrderQueue.list.length ≤ 64 := by
    unfold nodeCount at htotal'
    omega
  have hiff : (ba.freeOrderQueue.cnt - UInt32.ofNat taken -
        UInt32.ofNat out.length).toNat =
      ba.freeOrderQueue.list.length - taken + out.length ↔ out.length = 0 :=
    counter_kept_iff kept.counter few enough (by omega)
  have hfree : ba'.freeOrderQueue.list.length =
      ba.freeOrderQueue.list.length - taken + out.length := by omega
  rw [← hcnt, ← hfree, List.length_eq_zero_iff] at hiff
  rw [← hiff]
  exact ⟨fun kept' => kept'.counter, fun counter => ⟨htotal', counter⟩⟩

theorem frame_poolKept_iff (h : InSession ba session) (kept : PoolKept ba)
    (seq : BitVec 12) (skb : α) :
    HoldsBack ba seq ↔
      ∃ ba', reorderStep ba (.frame seq skb) = some ba' ∧ PoolKept ba' := by
  have pool := h.pool_ne_nil kept.nodes
  have hpositive := List.length_pos_iff.mpr pool
  obtain ⟨ba', hstep⟩ := frame_returns h seq skb pool
  have enough : (if (frameArrival (openWindow session seq) seq skb).2.2
      then 1 else 0) ≤ ba.freeOrderQueue.list.length := by
    split <;> omega
  have hiff := poolKept_iff_of_effect kept (frame_effect h hstep)
    (reorderStep_nodeCount h (by simp) hstep) enough
  rw [← frame_out_eq_nil h seq skb, ← hiff, hstep]
  simp

theorem timeout_poolKept_iff (h : InSession ba session) (kept : PoolKept ba) :
    ba.pendingReorderQueue.list = [] ↔
      ∃ ba', reorderStep ba .timeout = some ba' ∧ PoolKept ba' := by
  cases session with
  | none =>
      rw [timeout_idle h]
      simp only [Idle.pending h, Option.some.injEq, exists_eq_left', true_iff]
      exact ⟨kept.nodes, kept.counter⟩
  | some window =>
      obtain ⟨ba', hstep⟩ := timeout_returns h
      have hiff := poolKept_iff_of_effect kept (timeout_effect h hstep).1
        (reorderStep_nodeCount h (by simp) hstep) (by omega)
      rw [hstep]
      simp only [Option.some.injEq, exists_eq_left', hiff,
        Window.skip_out_eq_nil]
      rw [← List.length_eq_zero_iff, ← List.length_eq_zero_iff,
        Simulates.pending_length h]

theorem reinit_poolKept_iff (h : InSession ba session) (kept : PoolKept ba) :
    PoolKept (baReinit ba) ↔ ba.pendingReorderQueue.list = [] := by
  have hnodes := kept.nodes
  rw [reinit_eq h]
  constructor
  · intro kept'
    have hnodes' := kept'.nodes
    simp only [List.length_nil] at hnodes'
    rw [← List.length_eq_zero_iff]
    omega
  · intro empty
    rw [empty] at hnodes
    exact ⟨hnodes, kept.counter⟩

end Steps

/-! ## All traffic identifiers -/

def NicInSession (baCtl : BaCtl α) : Prop :=
  ∀ tid, ∃ session, InSession (baCtl tid) session

theorem wfRxBaReinit_apply (baCtl : BaCtl α) (tid : UInt8)
    (other : Fin tidNum) :
    (wfRxBaReinit tid baCtl).2 other =
      if other.val = tid.toNat then baReinit (baCtl other)
      else baCtl other := by
  unfold wfRxBaReinit
  by_cases inRange : tid.toNat < tidNum
  · by_cases same : other = ⟨tid.toNat, inRange⟩
    · simp [inRange, same]
    · have hne : other.val ≠ tid.toNat := fun heq => same (Fin.ext heq)
      simp [inRange, same, hne]
  · have hne : other.val ≠ tid.toNat := by omega
    simp [inRange, hne]

private theorem reinit_range_apply (baCtl : BaCtl α) (n : Nat)
    (bound : n ≤ tidNum) (tid : Fin tidNum) :
    (List.range n).foldl
        (fun baCtl tid => (wfRxBaReinit (UInt8.ofNat tid) baCtl).2) baCtl tid =
      if tid.val < n then baReinit (baCtl tid) else baCtl tid := by
  induction n with
  | zero => simp
  | succ n ih =>
      have hnat : (UInt8.ofNat n).toNat = n := by
        apply UInt8.toNat_ofNat_of_lt'
        unfold tidNum at bound
        simp only [UInt8.size]
        omega
      rw [List.range_succ, List.foldl_append, List.foldl_cons, List.foldl_nil,
        wfRxBaReinit_apply, ih (by omega), hnat]
      by_cases last : tid.val = n
      · simp [last]
      · have hlt : tid.val < n + 1 ↔ tid.val < n := by omega
        simp [last, hlt]

theorem wfRxBaAllReinit_apply (baCtl : BaCtl α) (tid : Fin tidNum) :
    wfRxBaAllReinit baCtl tid = baReinit (baCtl tid) := by
  rw [wfRxBaAllReinit, reinit_range_apply baCtl tidNum le_rfl]
  simp [tid.isLt]

theorem nicStep_apply {baCtl baCtl' : BaCtl α} {step : NicStep α}
    (hstep : nicStep baCtl step = some baCtl') (tid : Fin tidNum) :
    baCtl' tid = baCtl tid ∨
      ∃ own, reorderStep (baCtl tid) own = some (baCtl' tid) := by
  have single : ∀ (target : Fin tidNum) (own : ReorderStep α),
      (reorderStep (baCtl target) own).map (Function.update baCtl target) =
          some baCtl' →
        baCtl' tid = baCtl tid ∨
          ∃ own, reorderStep (baCtl tid) own = some (baCtl' tid) := by
    intro target own hmap
    obtain ⟨next, hnext, rfl⟩ := Option.map_eq_some_iff.mp hmap
    by_cases same : tid = target
    · subst target
      right
      exact ⟨own, by simpa using hnext⟩
    · left
      simp [same]
  cases step with
  | frame target seq skb => exact single target (.frame seq skb) hstep
  | timeout target => exact single target .timeout hstep
  | addba target waitTimeout => exact single target (.addba waitTimeout) hstep
  | reinit target =>
      rw [nicStep, Option.some.injEq] at hstep
      subst baCtl'
      rw [wfRxBaReinit_apply]
      split
      · exact Or.inr ⟨.reinit, rfl⟩
      · exact Or.inl rfl
  | allReinit =>
      rw [nicStep, Option.some.injEq] at hstep
      subst baCtl'
      rw [wfRxBaAllReinit_apply]
      exact Or.inr ⟨.reinit, rfl⟩

theorem nicStep_inSession {baCtl baCtl' : BaCtl α} {step : NicStep α}
    (h : NicInSession baCtl) (hstep : nicStep baCtl step = some baCtl') :
    NicInSession baCtl' := by
  intro tid
  obtain ⟨session, hsession⟩ := h tid
  rcases nicStep_apply hstep tid with same | ⟨own, hown⟩
  · exact ⟨session, by rw [same]; exact hsession⟩
  · exact ⟨_, reorderStep_inSession hsession hown⟩

theorem nicRun_inSession {kzalloc : Fin tidNum → Nat → Bool}
    {steps : List (NicStep α)} {baCtl : BaCtl α}
    (reached : nicRun (wfRxActionBaCtlInit kzalloc) steps = some baCtl) :
    NicInSession baCtl := by
  refine run_invariant NicInSession ?_ ?_ reached
  · intro state next step _ hstate hstep
    exact nicStep_inSession hstate hstep
  · exact fun tid => ⟨none, baCtlInit_inSession (kzalloc tid)⟩

/-! ## Conservation of the nodes -/

/--
The steps that keep the pool: frames that hand nothing out, and timeouts and
re-initialisations that find no frame waiting.
-/
def KeepsPool (baCtl : BaCtl α) : NicStep α → Prop
  | .frame tid seq _ => HoldsBack (baCtl tid) seq
  | .timeout tid => (baCtl tid).pendingReorderQueue.list = []
  | .addba _ _ => True
  | .reinit tid => ∀ other : Fin tidNum, other.val = tid.toNat →
      (baCtl other).pendingReorderQueue.list = []
  | .allReinit => ∀ tid, (baCtl tid).pendingReorderQueue.list = []

private theorem single_poolKept_iff {baCtl : BaCtl α}
    (kept : ∀ tid, PoolKept (baCtl tid)) (target : Fin tidNum)
    (outcome : Option (RecvBaCtrl α)) :
    (∃ next, outcome.map (Function.update baCtl target) = some next ∧
        ∀ tid, PoolKept (next tid)) ↔
      ∃ ba', outcome = some ba' ∧ PoolKept ba' := by
  cases outcome with
  | none => simp
  | some ba' =>
      simp only [Option.map_some, Option.some.injEq, exists_eq_left']
      constructor
      · intro every
        simpa using every target
      · intro hkept tid
        by_cases same : tid = target
        · subst target
          simpa using hkept
        · simpa [same] using kept tid

theorem keepsPool_iff {baCtl : BaCtl α} (h : NicInSession baCtl)
    (kept : ∀ tid, PoolKept (baCtl tid)) (step : NicStep α) :
    KeepsPool baCtl step ↔
      ∃ next, nicStep baCtl step = some next ∧
        ∀ tid, PoolKept (next tid) := by
  cases step with
  | frame tid seq skb =>
      obtain ⟨session, hsession⟩ := h tid
      simp only [nicStep, single_poolKept_iff kept]
      exact frame_poolKept_iff hsession (kept tid) seq skb
  | timeout tid =>
      obtain ⟨session, hsession⟩ := h tid
      simp only [nicStep, single_poolKept_iff kept]
      exact timeout_poolKept_iff hsession (kept tid)
  | addba tid waitTimeout =>
      simp only [nicStep, single_poolKept_iff kept, KeepsPool, true_iff]
      exact ⟨_, rfl, (kept tid).nodes, (kept tid).counter⟩
  | reinit tid =>
      simp only [nicStep, KeepsPool, Option.some.injEq, exists_eq_left',
        wfRxBaReinit_apply]
      refine forall_congr' fun other => ?_
      obtain ⟨session, hsession⟩ := h other
      by_cases same : other.val = tid.toNat
      · simp [same, reinit_poolKept_iff hsession (kept other)]
      · simp [same, kept other]
  | allReinit =>
      simp only [nicStep, KeepsPool, Option.some.injEq, exists_eq_left',
        wfRxBaAllReinit_apply]
      refine forall_congr' fun tid => ?_
      obtain ⟨session, hsession⟩ := h tid
      exact (reinit_poolKept_iff hsession (kept tid)).symm

theorem baCtlInit_poolKept (kzalloc : Nat → Bool) :
    PoolKept (baCtlInit kzalloc : RecvBaCtrl α) ↔
      ∀ i < baReorderQueueNum, kzalloc i = true := by
  rw [← baCtlInit_nodeCount]
  constructor
  · exact fun kept => kept.nodes
  · intro nodes
    refine ⟨nodes, ?_⟩
    have hlength : ((List.range baReorderQueueNum).takeWhile
        kzalloc).length ≤ (List.range baReorderQueueNum).length :=
      (List.takeWhile_prefix kzalloc).length_le
    rw [List.length_range] at hlength
    rw [baCtlInit_freeOrderQueue, List.length_map]
    apply UInt32.toNat_ofNat_of_lt'
    unfold baReorderQueueNum at *
    simp only [UInt32.size]
    omega

/--
From set-up on, all nodes stay in the two lists and in the counter, and no step
waits for a node, exactly in the runs made of steps that keep the pool.
-/
theorem reorder_pool_kept_iff (kzalloc : Fin tidNum → Nat → Bool)
    (steps : List (NicStep α)) :
    Throughout nicStep (fun baCtl => ∀ tid, PoolKept (baCtl tid))
        (wfRxActionBaCtlInit kzalloc) steps ↔
      (∀ tid, ∀ i < baReorderQueueNum, kzalloc tid i = true) ∧
        EachStep nicStep KeepsPool (wfRxActionBaCtlInit kzalloc) steps := by
  have hsession : NicInSession (wfRxActionBaCtlInit kzalloc : BaCtl α) :=
    fun tid => ⟨none, baCtlInit_inSession (kzalloc tid)⟩
  have hstart : (∀ tid, PoolKept
      ((wfRxActionBaCtlInit kzalloc : BaCtl α) tid)) ↔
        ∀ tid, ∀ i < baReorderQueueNum, kzalloc tid i = true :=
    forall_congr' fun tid => baCtlInit_poolKept (kzalloc tid)
  have hiff : (∀ tid, PoolKept
      ((wfRxActionBaCtlInit kzalloc : BaCtl α) tid)) →
        (Throughout nicStep (fun baCtl => ∀ tid, PoolKept (baCtl tid))
          (wfRxActionBaCtlInit kzalloc) steps ↔
            EachStep nicStep KeepsPool (wfRxActionBaCtlInit kzalloc) steps) :=
    throughout_iff_eachStep NicInSession
      (fun _ _ _ hstate hstep => nicStep_inSession hstate hstep)
      (fun _ step hstate kept => keepsPool_iff hstate kept step) hsession
  rw [← hstart]
  constructor
  · intro throughout
    exact ⟨throughout.start, (hiff throughout.start).mp throughout⟩
  · intro allowed
    exact (hiff allowed.1).mpr allowed.2

/--
One frame in sequence already leaves the counter wrong, and a reconnection that
finds a frame waiting loses its node for good.
-/
theorem reorder_pool_not_kept :
    ¬∀ steps : List (NicStep Unit),
      Throughout nicStep (fun baCtl => ∀ tid, PoolKept (baCtl tid))
        (wfRxActionBaCtlInit fun _ _ => true) steps := by
  intro every
  obtain ⟨baCtl, hrun, kept⟩ :=
    (every [.frame 0 0 (), .frame 0 2 (), .allReinit]).final
  have hnodes := (kept 0).nodes
  have hlost : (nicRun (wfRxActionBaCtlInit fun _ _ => true)
      [.frame 0 0 (), .frame 0 2 (), .allReinit]).map
        (fun baCtl => nodeCount (baCtl 0)) = some 63 := by
    decide +kernel
  rw [nicRun, hrun, Option.map_some, Option.some.injEq, nodeCount,
    hnodes] at hlost
  contradiction

-- sixty-four reconnections of that kind, and the next frame waits for ever
example : reorderRun (enabledCtl (fun _ => true) 0)
    ((List.replicate 64
        [ReorderStep.frame 0 (), .frame 2 (), .reinit]).flatten ++
      [.frame 5 ()]) = none := by
  decide +kernel

/-! ## Teardown -/

/--
What a teardown owes: the pending queue ends empty and each buffer that waited
in it, and nothing else, was given to `free_skb` once.
-/
def FreesPending (before after : RecvBaCtrl α) : Prop :=
  after.pendingReorderQueue.list = [] ∧
    ∃ given : List α, after.freed = before.freed ++ given.map some ∧
      (given.map some).Perm (pendingSkbs before)

private theorem freesPending_iff_of_freed_eq {before after : RecvBaCtrl α}
    (empty : after.pendingReorderQueue.list = [])
    (freed : after.freed = before.freed) :
    FreesPending before after ↔ before.pendingReorderQueue.list = [] := by
  constructor
  · rintro ⟨-, given, hgiven, hperm⟩
    rw [freed, List.self_eq_append_right, List.map_eq_nil_iff] at hgiven
    subst given
    have hnil : pendingSkbs before = [] := List.nil_perm.mp hperm
    exact List.map_eq_nil_iff.mp hnil
  · intro hlist
    refine ⟨empty, [], by simp [freed], ?_⟩
    simp [pendingSkbs, hlist]

theorem reinit_freesPending_iff {ba : RecvBaCtrl α}
    {session : Option (Window α)} (h : InSession ba session) :
    FreesPending ba (baReinit ba) ↔ ba.pendingReorderQueue.list = [] := by
  apply freesPending_iff_of_freed_eq
  · rw [reinit_eq h]
  · rw [reinit_eq h]

theorem deinit_freesPending_iff {ba : RecvBaCtrl α}
    {session : Option (Window α)} (h : InSession ba session) :
    FreesPending ba (baDeinit ba) ↔ ba.pendingReorderQueue.list = [] := by
  have heq := freePending_eq h.counted h.filled
  apply freesPending_iff_of_freed_eq
  · simp only [baDeinit, heq]
    split <;> rfl
  · simp only [baDeinit, heq]
    split <;> rfl

/-- The two teardown paths lose every frame they find. -/
theorem teardown_frees_iff {kzalloc : Fin tidNum → Nat → Bool}
    {steps : List (NicStep α)} {baCtl : BaCtl α}
    (reached : nicRun (wfRxActionBaCtlInit kzalloc) steps = some baCtl)
    (tid : Fin tidNum) :
    (FreesPending (baCtl tid)
        ((wfRxBaReinit (UInt8.ofNat tid.val) baCtl).2 tid) ↔
      (baCtl tid).pendingReorderQueue.list = []) ∧
    (FreesPending (baCtl tid) (wfRxActionBaCtlDeinit baCtl tid) ↔
      (baCtl tid).pendingReorderQueue.list = []) := by
  obtain ⟨session, hsession⟩ := nicRun_inSession reached tid
  have htid : tid.val = (UInt8.ofNat tid.val).toNat := by
    have hlt : tid.val < 16 := tid.isLt
    symm
    apply UInt8.toNat_ofNat_of_lt'
    simp only [UInt8.size]
    omega
  constructor
  · rw [wfRxBaReinit_apply, if_pos htid]
    exact reinit_freesPending_iff hsession
  · exact deinit_freesPending_iff hsession

def firstTid : Fin tidNum := 0

def gapSteps : List (NicStep Unit) := [.frame firstTid 0 (), .frame firstTid 2 ()]

def gapState : BaCtl Unit :=
  (nicRun (wfRxActionBaCtlInit fun _ _ => true) gapSteps).getD
    (wfRxActionBaCtlInit fun _ _ => true)

theorem gapState_reached :
    nicRun (wfRxActionBaCtlInit fun _ _ => true) gapSteps = some gapState := by
  have returns : (nicRun (wfRxActionBaCtlInit fun _ _ => true)
      gapSteps).isSome = true := by
    decide +kernel
  obtain ⟨baCtl, hrun⟩ := Option.isSome_iff_exists.mp returns
  rw [gapState, hrun, Option.getD_some]

theorem teardown_frees_iff_gap :
    (FreesPending (gapState 0) ((wfRxBaReinit 0 gapState).2 0) ↔
      (gapState 0).pendingReorderQueue.list = []) ∧
    (FreesPending (gapState 0) (wfRxActionBaCtlDeinit gapState 0) ↔
      (gapState 0).pendingReorderQueue.list = []) :=
  teardown_frees_iff gapState_reached 0

theorem teardown_loses_frame :
    ¬∀ (steps : List (NicStep Unit)) (baCtl : BaCtl Unit),
      nicRun (wfRxActionBaCtlInit fun _ _ => true) steps = some baCtl →
        ∀ tid : Fin tidNum,
          FreesPending (baCtl tid)
              ((wfRxBaReinit (UInt8.ofNat tid.val) baCtl).2 tid) ∧
            FreesPending (baCtl tid) (wfRxActionBaCtlDeinit baCtl tid) := by
  intro every
  have hgap := every gapSteps gapState gapState_reached 0
  obtain ⟨-, given, hgiven, hperm⟩ := hgap.1
  have hlength := congrArg List.length hgiven
  rw [List.length_append, hperm.length_eq] at hlength
  have hfreed : ((wfRxBaReinit (UInt8.ofNat (0 : Fin tidNum).val)
      gapState).2 0).freed.length = 0 := by
    decide +kernel
  have hwaiting : (pendingSkbs (gapState 0)).length = 1 := by
    decide +kernel
  omega

end Smartchip.Rx
