import Smartchip.Rx.ReorderRefinement

/-!
# What each entry point of the reorder engine does

One lemma per entry point of the engine.  Each says where the control block
stands in the window of unbounded positions, which buffers were handed to the
callbacks, and what happened to the node pool and to the timer.
-/

namespace Smartchip.Rx

open Smartchip.Foundation

universe u

variable {α : Type u}

/-! ## The sequence check -/

def framePosition (next : ℤ) (seq : BitVec 12) : ℤ :=
  liftNear 2048 next seq.toNat

theorem framePosition_lower (next : ℤ) (seq : BitVec 12) :
    -2048 ≤ framePosition next seq - next := by
  have := liftNear_lower (by omega : (0 : ℤ) < 2048) next seq.toNat
  unfold framePosition
  omega

theorem framePosition_upper (next : ℤ) (seq : BitVec 12) :
    framePosition next seq - next < 2048 := by
  have := liftNear_upper (by omega : (0 : ℤ) < 2048) next seq.toNat
  unfold framePosition
  omega

theorem numbers_framePosition (next : ℤ) (seq : BitVec 12) :
    Numbers (seqField seq) (framePosition next seq) := by
  have hmod := liftNear_emod 2048 next seq.toNat
  have hlt := seq.isLt
  unfold Numbers framePosition
  rw [seqField_toNat]
  omega

theorem framePosition_expected {next : ℤ} {seq : BitVec 12}
    (expected : Numbers (seqField seq) next) : framePosition next seq = next := by
  have lower := framePosition_lower next seq
  have upper := framePosition_upper next seq
  have found := numbers_framePosition next seq
  unfold Numbers at expected found
  omega

@[simp] theorem framePosition_self (seq : BitVec 12) :
    framePosition seq.toNat seq = seq.toNat := by
  simp [framePosition, liftNear, circularSub]

theorem Numbers.ne_unset {number : UInt16} {position : ℤ}
    (h : Numbers number position) : number ≠ 0xFFFF := by
  unfold Numbers at h
  intro heq
  subst heq
  change (65535 : ℤ) = position % 4096 at h
  omega

section Check

variable {ba : RecvBaCtrl α} {next : ℤ} {seq : BitVec 12}

private def checkEnd (ba : RecvBaCtrl α) : UInt16 :=
  (ba.indicateSeq + ba.wsizeB.toUInt16 - 1) &&& 0xFFF

private theorem numbers_checkEnd (hsize : ba.wsizeB = 64)
    (hindicate : Numbers ba.indicateSeq next) :
    Numbers (checkEnd ba) (next + 63) := by
  have hbound := ba.indicateSeq.toNat_lt
  unfold Numbers at hindicate ⊢
  rw [checkEnd, low12_toNat, hsize, UInt16.toNat_sub, UInt16.toNat_add]
  change (((2 ^ 16 - 1 + (ba.indicateSeq.toNat + 64) % 2 ^ 16) % 2 ^ 16 % 4096 :
    ℕ) : ℤ) = _
  omega

/-! Both forms of the jump beyond the window lead to the same number. -/

private theorem numbers_jump_high {position : ℤ} {seqNum : UInt16}
    (hseq : Numbers seqNum position) (high : 63 ≤ seqNum.toNat) :
    Numbers (seqNum + 1 - 64) (position - 64 + 1) := by
  have hbound := seqNum.toNat_lt
  have hone : (1 : UInt16).toNat = 1 := rfl
  have hsize : (64 : UInt16).toNat = 64 := rfl
  unfold Numbers at hseq ⊢
  rw [UInt16.toNat_sub, UInt16.toNat_add, hone, hsize]
  omega

private theorem numbers_jump_low {position : ℤ} {seqNum : UInt16}
    (hseq : Numbers seqNum position) (low : seqNum.toNat < 63) :
    Numbers (0xFFF - (64 - (seqNum + 1)) + 1) (position - 64 + 1) := by
  have hone : (1 : UInt16).toNat = 1 := rfl
  have hsize : (64 : UInt16).toNat = 64 := rfl
  have htop : (0xFFF : UInt16).toNat = 4095 := rfl
  unfold Numbers at hseq ⊢
  rw [UInt16.toNat_add, UInt16.toNat_sub, UInt16.toNat_sub, UInt16.toNat_add,
    hone, hsize, htop]
  omega

/-- The comparisons with `indicate_seq` are those of the positions. -/
theorem compare_framePosition {indicateSeq : UInt16}
    (hindicate : Numbers indicateSeq next) (seq : BitVec 12) :
    (snEqual (seqField seq) indicateSeq = true ↔ framePosition next seq = next) ∧
      (snLess (seqField seq) indicateSeq = true ↔ framePosition next seq < next) := by
  have hseq := numbers_framePosition next seq
  have lower := framePosition_lower next seq
  have upper := framePosition_upper next seq
  exact ⟨hseq.equal_iff hindicate (by omega) (by omega), hseq.less_iff hindicate lower upper⟩

theorem rxDoChkExpectSeq_late
    (hindicate : Numbers ba.indicateSeq next)
    (late : framePosition next seq < next) :
    rxDoChkExpectSeq (seqField seq) ba =
      (.drop, { ba with
        wendB := checkEnd ba, dropPkts := ba.dropPkts + 1 }) := by
  obtain ⟨hequal, hless⟩ := compare_framePosition hindicate seq
  have hne : snEqual (seqField seq) ba.indicateSeq = false := by
    rw [Bool.eq_false_iff]
    exact fun htrue => late.ne (hequal.mp htrue)
  simp [rxDoChkExpectSeq, hindicate.ne_unset, hne, hless.mpr late, checkEnd]

theorem rxDoChkExpectSeq_accept (hsize : ba.wsizeB = 64)
    (hindicate : Numbers ba.indicateSeq next)
    (known : next ≤ framePosition next seq) :
    ∃ indicateSeq,
      Numbers indicateSeq
          (Window.advance 64 next (framePosition next seq)) ∧
        rxDoChkExpectSeq (seqField seq) ba =
          (.enque, { ba with wendB := checkEnd ba, indicateSeq }) := by
  have hseq := numbers_framePosition next seq
  have lower := framePosition_lower next seq
  have upper := framePosition_upper next seq
  obtain ⟨hequal, hless⟩ := compare_framePosition hindicate seq
  have hbeyond := (numbers_checkEnd hsize hindicate).less_iff hseq
    (by omega) (by omega)
  have hset := hindicate.ne_unset
  unfold Window.advance
  by_cases same : framePosition next seq = next
  · refine ⟨_, by simpa [same] using hindicate.succ, ?_⟩
    simp [rxDoChkExpectSeq, hset, hequal.mpr same, checkEnd]
  · have hne : snEqual (seqField seq) ba.indicateSeq = false := by
      rw [Bool.eq_false_iff]
      exact fun htrue => same (hequal.mp htrue)
    have hnot : snLess (seqField seq) ba.indicateSeq = false := by
      rw [Bool.eq_false_iff]
      exact fun htrue => absurd (hless.mp htrue) (not_lt.mpr known)
    by_cases beyond : next + 63 < framePosition next seq
    · have hcond : next + 64 - 1 < framePosition next seq := by omega
      have htrue := hbeyond.mpr beyond
      rw [checkEnd, hsize] at htrue
      by_cases high : 63 ≤ (seqField seq).toNat
      · refine ⟨seqField seq + 1 - 64, ?_, ?_⟩
        · simpa [same, hcond] using numbers_jump_high hseq high
        · have hbranch : ((64 : UInt8).toNat : ℤ) - 1 ≤
              (seqField seq).toNat := by
            change (64 : ℤ) - 1 ≤ _
            omega
          simp only [rxDoChkExpectSeq, hset, if_false, hne, hnot, htrue,
            hsize, if_true, Bool.false_eq_true, hbranch, checkEnd]
          rfl
      · refine ⟨0xFFF - (64 - (seqField seq + 1)) + 1, ?_, ?_⟩
        · simpa [same, hcond] using numbers_jump_low hseq (not_le.mp high)
        · have hbranch : ¬((64 : UInt8).toNat : ℤ) - 1 ≤
              (seqField seq).toNat := by
            change ¬(64 : ℤ) - 1 ≤ _
            omega
          simp only [rxDoChkExpectSeq, hset, if_false, hne, hnot, htrue,
            hsize, if_true, Bool.false_eq_true, hbranch, checkEnd]
          rfl
    · refine ⟨ba.indicateSeq, ?_, ?_⟩
      · have hcond : ¬next + 64 - 1 < framePosition next seq := by omega
        simpa [same, hcond] using hindicate
      · have hfalse : snLess (checkEnd ba) (seqField seq) = false := by
          rw [Bool.eq_false_iff]
          exact fun htrue => beyond (hbeyond.mp htrue)
        unfold checkEnd at hfalse
        simp [rxDoChkExpectSeq, hset, hne, hnot, hfalse, checkEnd]

end Check

/-! ## The control block and its window -/

/-- The control block stands for `window`. -/
structure Simulates (ba : RecvBaCtrl α) (window : Window α) : Prop where
  size : ba.wsizeB = 64
  counted : Counted ba
  indicate : Numbers ba.indicateSeq window.next
  pending : List.Forall₂ Tracks ba.pendingReorderQueue.list window.held
  valid : window.Valid 64

structure Idle (ba : RecvBaCtrl α) : Prop where
  size : ba.wsizeB = 64
  counted : Counted ba
  indicate : ba.indicateSeq = 0xFFFF
  pending : ba.pendingReorderQueue.list = []

def InSession (ba : RecvBaCtrl α) : Option (Window α) → Prop
  | none => Idle ba
  | some window => Simulates ba window

def openWindow (session : Option (Window α)) (seq : BitVec 12) : Window α :=
  session.getD ⟨seq.toNat, []⟩

def Armed (ba : RecvBaCtrl α) : Prop :=
  ba.pendingReorderQueue.list ≠ [] → ba.reorderingCtrlTimer = true

/--
One completed step: `out` was handed to `upload_func`, `refused` to `free_skb`,
and `taken` nodes were dequeued from the free list.
-/
structure Effect (ba ba' : RecvBaCtrl α) (window : Window α)
    (out : List (ℤ × α)) (refused : List α) (taken : Nat) : Prop where
  simulates : Simulates ba' window
  uploaded : ba'.uploaded = ba.uploaded ++ out.map Prod.snd
  freed : ba'.freed = ba.freed ++ refused.map some
  released : ba'.released = ba.released
  poolLength : ba'.freeOrderQueue.list.length + taken =
    ba.freeOrderQueue.list.length + out.length
  poolCnt : ba'.freeOrderQueue.cnt =
    ba.freeOrderQueue.cnt - UInt32.ofNat taken - UInt32.ofNat out.length
  armed : Armed ba → Armed ba'

theorem Simulates.pending_length {ba : RecvBaCtrl α} {window : Window α}
    (sim : Simulates ba window) :
    ba.pendingReorderQueue.list.length = window.held.length :=
  sim.pending.length_eq

private theorem map_pskb_of_tracks {nodes : List (RxReorderQueue α)}
    {held : List (ℤ × α)} (tracks : List.Forall₂ Tracks nodes held) :
    nodes.map (·.pskb) = held.map fun item => some item.2 := by
  induction tracks with
  | nil => rfl
  | cons hnode _ ih => simp [hnode.2, ih]

theorem Simulates.pendingSkbs_eq {ba : RecvBaCtrl α} {window : Window α}
    (sim : Simulates ba window) :
    pendingSkbs ba = window.held.map fun item => some item.2 :=
  map_pskb_of_tracks sim.pending

theorem Simulates.pending_lt {ba : RecvBaCtrl α} {window : Window α}
    (sim : Simulates ba window) :
    ba.pendingReorderQueue.list.length < 64 := by
  have bound := sim.valid.length_lt (by omega)
  rw [sim.pending_length]
  omega

theorem Simulates.near {ba : RecvBaCtrl α} {window : Window α}
    (sim : Simulates ba window) {position : ℤ}
    (lower : window.next - 1984 ≤ position)
    (upper : position < window.next + 2048) :
    ∀ item ∈ window.held, -2048 ≤ position - item.1 ∧
      position - item.1 < 2048 := by
  intro item member
  have inside := sim.valid.inside item member
  omega

/-! ## Uploading and arming -/

private theorem queued_ne_zero {ba : RecvBaCtrl α} (hcounted : Counted ba)
    (few : ba.pendingReorderQueue.list.length < 64)
    (queued : ba.pendingReorderQueue.list ≠ []) :
    UInt8.ofInt (rxPendingReorderGetCnt ba) ≠ 0 := by
  have positive := List.length_pos_iff.mpr queued
  have hcnt : ba.pendingReorderQueue.cnt.toNat =
      ba.pendingReorderQueue.list.length := by
    rw [hcounted]
    exact UInt32.toNat_ofNat_of_lt' (by simp only [UInt32.size]; omega)
  intro heq
  have hnat := congrArg UInt8.toNat heq
  simp only [rxPendingReorderGetCnt, hcnt, UInt8.ofInt, UInt8.toNat_ofNat',
    UInt8.toNat_zero] at hnat
  omega

private theorem timerSetIfQueued_eq (cnt : Int) (ba : RecvBaCtrl α) :
    timerSetIfQueued cnt ba = { ba with
      reorderingCtrlTimer :=
        ba.reorderingCtrlTimer || decide (UInt8.ofInt cnt ≠ 0) } := by
  by_cases zero : UInt8.ofInt cnt = 0 <;> simp [timerSetIfQueued, zero]

private theorem upload_then_arm {ba : RecvBaCtrl α} {next : ℤ}
    {held : List (ℤ × α)} (hsize : ba.wsizeB = 64)
    (hindicate : Numbers ba.indicateSeq next)
    (htracks : List.Forall₂ Tracks ba.pendingReorderQueue.list held)
    (hcounted : Counted ba)
    (sorted : (held.map Prod.fst).Pairwise (· < ·))
    (bounded : ∀ item ∈ held, item.1 < next + 64)
    (near : ∀ item ∈ held, -2048 ≤ next - item.1 ∧ next - item.1 < 2048) :
    ∃ cnt ba', rxReorderUpload ba = some (cnt, ba') ∧
      Effect ba (timerSetIfQueued cnt ba')
        ⟨(Window.drain next held).1, (Window.drain next held).2.2⟩
        (Window.drain next held).2.1 [] 0 ∧
      Armed (timerSetIfQueued cnt ba') := by
  obtain ⟨ba', huploads, hloop⟩ := uploadLoop_drain
    (Nat.lt_succ_self ba.pendingReorderQueue.list.length) hindicate htracks
    hcounted sorted near
  have sim : Simulates ba'
      ⟨(Window.drain next held).1, (Window.drain next held).2.2⟩ :=
    ⟨by rw [← hsize, ← huploads.rest], huploads.counted, huploads.indicate,
      huploads.pending, Window.drain_valid sorted bounded⟩
  have harmed : Armed (timerSetIfQueued
      (if (Window.drain next held).2.2.isEmpty then 0
        else rxPendingReorderGetCnt ba') ba') := by
    rw [timerSetIfQueued_eq]
    intro queued
    have hlist : ba'.pendingReorderQueue.list ≠ [] := queued
    have hleft : (Window.drain next held).2.2.isEmpty = false := by
      have hlength := sim.pending_length
      have positive := List.length_pos_iff.mpr hlist
      rw [← Bool.not_eq_true, List.isEmpty_iff_length_eq_zero]
      simp only at hlength
      omega
    simp [hleft, queued_ne_zero huploads.counted sim.pending_lt hlist]
  refine ⟨_, ba', hloop, ?_, harmed⟩
  have hrest := huploads.rest
  exact {
    simulates := by
      rw [timerSetIfQueued_eq]
      exact ⟨sim.size, sim.counted, sim.indicate, sim.pending, sim.valid⟩
    uploaded := by rw [timerSetIfQueued_eq]; exact huploads.uploaded
    freed := by
      rw [timerSetIfQueued_eq, ← congrArg RecvBaCtrl.freed hrest]
      simp
    released := by
      rw [timerSetIfQueued_eq, ← congrArg RecvBaCtrl.released hrest]
    poolLength := by rw [timerSetIfQueued_eq]; exact huploads.poolLength
    poolCnt := by
      rw [timerSetIfQueued_eq]
      simpa using huploads.poolCnt
    armed := fun _ => harmed }

private theorem enqueue_then_upload {ba : RecvBaCtrl α} {seqNum : UInt16}
    {skb : α} {next position : ℤ} {held inserted : List (ℤ × α)}
    (hsize : ba.wsizeB = 64) (hindicate : Numbers ba.indicateSeq next)
    (hseq : Numbers seqNum position)
    (htracks : List.Forall₂ Tracks ba.pendingReorderQueue.list held)
    (hcounted : Counted ba)
    (sorted : (held.map Prod.fst).Pairwise (· < ·))
    (near : ∀ item ∈ held, -2048 ≤ position - item.1 ∧
      position - item.1 < 2048)
    (hinsert : Window.insertAt position skb held = some inserted)
    (bounded : ∀ item ∈ inserted, item.1 < next + 64)
    (close : ∀ item ∈ inserted, next < item.1 + 2048)
    (pool : ba.freeOrderQueue.list ≠ []) :
    ∃ queued cnt ba',
      rxPendingReorderEnqueue seqNum (some skb) ba = some (0, queued) ∧
        rxReorderUpload queued = some (cnt, ba') ∧
        Effect ba (timerSetIfQueued cnt ba')
          ⟨(Window.drain next inserted).1, (Window.drain next inserted).2.2⟩
          (Window.drain next inserted).2.1 [] 1 := by
  obtain ⟨free, rest, hpool⟩ := List.exists_cons_of_ne_nil pool
  obtain ⟨pending, hpending, henqueue⟩ := rxPendingReorderEnqueue_insert hseq
    htracks sorted near hinsert hpool
  have hlength : pending.length = ba.pendingReorderQueue.list.length + 1 := by
    rw [hpending.length_eq, (Window.insertAt_perm hinsert).length_eq,
      List.length_cons, htracks.length_eq]
  have hcount : ba.pendingReorderQueue.cnt + 1 =
      UInt32.ofNat pending.length := by
    rw [hlength, UInt32.ofNat_add, ← hcounted]
    rfl
  have hnear : ∀ item ∈ inserted, -2048 ≤ next - item.1 ∧
      next - item.1 < 2048 := by
    intro item member
    have := bounded item member
    have := close item member
    omega
  obtain ⟨cnt, ba', hupload, heffect, harmed⟩ := @upload_then_arm _
    { ba with
      freeOrderQueue := ⟨rest, ba.freeOrderQueue.cnt - 1⟩
      pendingReorderQueue := ⟨pending, ba.pendingReorderQueue.cnt + 1⟩ }
    next inserted hsize hindicate hpending hcount
    (Window.insertAt_sorted sorted hinsert) bounded hnear
  refine ⟨_, cnt, ba', henqueue, hupload, heffect.simulates,
    heffect.uploaded, heffect.freed, heffect.released, ?_, ?_,
    fun _ => harmed⟩
  · have hpoolLength := heffect.poolLength
    simp only [hpool, List.length_cons] at hpoolLength ⊢
    omega
  · rw [heffect.poolCnt]
    simp

/-! ## A received frame -/

section Frame

variable {ba : RecvBaCtrl α} {window : Window α}

def frameArrival (window : Window α) (seq : BitVec 12) (skb : α) :
    Window α × List (ℤ × α) × Bool :=
  Window.arrive 64 window (framePosition window.next seq) skb

theorem frameArrival_perm (window : Window α) (seq : BitVec 12) (skb : α) :
    ((frameArrival window seq skb).2.1 ++
        (frameArrival window seq skb).1.held).Perm
      (if (frameArrival window seq skb).2.2
        then (framePosition window.next seq, skb) :: window.held
        else window.held) :=
  Window.arrive_perm 64 window (framePosition window.next seq) skb

theorem frameArrival_handout (valid : window.Valid 64) (seq : BitVec 12)
    (skb : α) :
    Window.Handout 64 window (frameArrival window seq skb).1
      (frameArrival window seq skb).2.1 :=
  Window.arrive_handout (by omega) valid (framePosition window.next seq) skb

theorem frameArrival_next_le (valid : window.Valid 64) (seq : BitVec 12)
    (skb : α) :
    (frameArrival window seq skb).1.next ≤ window.next + 2048 := by
  have upper := framePosition_upper window.next seq
  apply Window.arrive_next_le (by omega) valid
  · omega
  · omega

private theorem frameArrival_late {seq : BitVec 12} {skb : α}
    (late : framePosition window.next seq < window.next) :
    frameArrival window seq skb = (window, [], false) := by
  simp [frameArrival, Window.arrive, late]

private theorem frameArrival_duplicate {seq : BitVec 12} {skb : α}
    (known : window.next ≤ framePosition window.next seq)
    (present : Window.insertAt (framePosition window.next seq) skb
      window.held = none) :
    frameArrival window seq skb = (window, [], false) := by
  simp [frameArrival, Window.arrive, not_lt.mpr known, present]

private theorem frameArrival_kept {seq : BitVec 12} {skb : α}
    {held : List (ℤ × α)}
    (known : window.next ≤ framePosition window.next seq)
    (inserted : Window.insertAt (framePosition window.next seq) skb
      window.held = some held) :
    frameArrival window seq skb =
      (⟨(Window.drain (Window.advance 64 window.next
          (framePosition window.next seq)) held).1,
        (Window.drain (Window.advance 64 window.next
          (framePosition window.next seq)) held).2.2⟩,
        (Window.drain (Window.advance 64 window.next
          (framePosition window.next seq)) held).2.1, true) := by
  simp [frameArrival, Window.arrive, not_lt.mpr known, inserted]

private theorem Effect.of_refused (sim : Simulates ba window)
    {indicateSeq : UInt16} (hindicate : Numbers indicateSeq window.next)
    (wendB : UInt16) (dropPkts : UInt64) (skb : α) :
    Effect ba { ba with
      indicateSeq, wendB, dropPkts, freed := ba.freed ++ [some skb] }
      window [] [skb] 0 where
  simulates := ⟨sim.size, sim.counted, hindicate, sim.pending, sim.valid⟩
  uploaded := by simp
  freed := by simp
  released := rfl
  poolLength := rfl
  poolCnt := by simp
  armed := id

private theorem advance_of_held {position : ℤ} {skb : α}
    (valid : window.Valid 64)
    (present : Window.insertAt position skb window.held = none) :
    Window.advance 64 window.next position = window.next := by
  obtain ⟨item, member, heq⟩ := Window.insertAt_eq_none present
  have inside := valid.inside item member
  unfold Window.advance
  split
  · omega
  · split <;> omega

private theorem advance_bounds {position : ℤ} {skb : α}
    {inserted : List (ℤ × α)} (valid : window.Valid 64)
    (known : window.next ≤ position) (upper : position - window.next < 2048)
    (hinsert : Window.insertAt position skb window.held = some inserted) :
    ∀ item ∈ inserted,
      item.1 < Window.advance 64 window.next position + 64 ∧
        Window.advance 64 window.next position < item.1 + 2048 := by
  have hlow := Window.le_advance 64 window.next position
  have hhigh : Window.advance 64 window.next position <
      window.next + 2048 := by
    unfold Window.advance
    split
    · omega
    · split <;> omega
  have harrival := Window.lt_advance_add (by omega : (0 : ℤ) < 64)
    window.next position
  intro item member
  rcases (Window.mem_of_insertAt hinsert item).mp member with rfl | member
  · exact ⟨harrival, by omega⟩
  · have inside := valid.inside item member
    omega

/-- A frame that is kept needs a node; with an empty pool it never returns. -/
theorem wfRxDataReorderCore_stuck (sim : Simulates ba window)
    {seq : BitVec 12} {skb : α} (kept : (frameArrival window seq skb).2.2 = true)
    (empty : ba.freeOrderQueue.list = []) :
    wfRxDataReorderCore (seqField seq) (some skb) ba = none := by
  have lower := framePosition_lower window.next seq
  have upper := framePosition_upper window.next seq
  have known : window.next ≤ framePosition window.next seq := by
    by_contra late
    simp [frameArrival_late (not_le.mp late)] at kept
  have absent : Window.insertAt (framePosition window.next seq) skb
      window.held ≠ none := by
    intro present
    simp [frameArrival_duplicate known present] at kept
  obtain ⟨indicateSeq, -, hcheck⟩ :=
    rxDoChkExpectSeq_accept sim.size sim.indicate known
  have hstuck : rxPendingReorderEnqueue (seqField seq) (some skb)
      { ba with wendB := checkEnd ba, indicateSeq } = none :=
    rxPendingReorderEnqueue_stuck (numbers_framePosition window.next seq)
      sim.pending sim.valid.sorted (sim.near (by omega) (by omega)) absent
      empty
  simp [wfRxDataReorderCore, hcheck, hstuck]

theorem wfRxDataReorderCore_effect (sim : Simulates ba window)
    {seq : BitVec 12} {skb : α}
    (pool : (frameArrival window seq skb).2.2 = true →
      ba.freeOrderQueue.list ≠ []) :
    ∃ ba', wfRxDataReorderCore (seqField seq) (some skb) ba = some ba' ∧
      Effect ba ba' (frameArrival window seq skb).1
        (frameArrival window seq skb).2.1
        (if (frameArrival window seq skb).2.2 then [] else [skb])
        (if (frameArrival window seq skb).2.2 then 1 else 0) := by
  have hseq := numbers_framePosition window.next seq
  have lower := framePosition_lower window.next seq
  have upper := framePosition_upper window.next seq
  by_cases late : framePosition window.next seq < window.next
  · rw [frameArrival_late late]
    refine ⟨_, ?_, Effect.of_refused sim sim.indicate (checkEnd ba)
      (ba.dropPkts + 1) skb⟩
    simp [wfRxDataReorderCore, rxDoChkExpectSeq_late sim.indicate late,
      ReorderState.val]
  · have known := not_lt.mp late
    obtain ⟨indicateSeq, hindicate, hcheck⟩ :=
      rxDoChkExpectSeq_accept sim.size sim.indicate known
    have hnear : ∀ item ∈ window.held,
        -2048 ≤ framePosition window.next seq - item.1 ∧
          framePosition window.next seq - item.1 < 2048 :=
      sim.near (by omega) (by omega)
    cases hinsert : Window.insertAt (framePosition window.next seq) skb
        window.held with
    | none =>
        have hdup : rxPendingReorderEnqueue (seqField seq) (some skb)
            { ba with wendB := checkEnd ba, indicateSeq } =
              some (-1, { ba with
                wendB := checkEnd ba, indicateSeq
                dropPkts := ba.dropPkts + 1 }) :=
          rxPendingReorderEnqueue_duplicate hseq sim.pending sim.valid.sorted
            hnear hinsert
        rw [frameArrival_duplicate known hinsert]
        rw [advance_of_held sim.valid hinsert] at hindicate
        refine ⟨_, ?_, Effect.of_refused sim hindicate (checkEnd ba)
          (ba.dropPkts + 1) skb⟩
        simp [wfRxDataReorderCore, hcheck, hdup]
    | some inserted =>
        rw [frameArrival_kept known hinsert] at pool ⊢
        have hbounds := advance_bounds sim.valid known upper hinsert
        obtain ⟨queued, cnt, ba', henqueue, hupload, heffect⟩ :=
          @enqueue_then_upload _ { ba with wendB := checkEnd ba, indicateSeq }
            _ skb _ _ _ inserted sim.size hindicate hseq sim.pending
            sim.counted sim.valid.sorted hnear hinsert
            (fun item member => (hbounds item member).1)
            (fun item member => (hbounds item member).2) (pool rfl)
        refine ⟨timerSetIfQueued cnt ba', ?_, ⟨heffect.simulates,
          heffect.uploaded, heffect.freed, heffect.released,
          heffect.poolLength, heffect.poolCnt, heffect.armed⟩⟩
        simp [wfRxDataReorderCore, hcheck, henqueue, hupload]

theorem Idle.open (idle : Idle ba) (seq : BitVec 12) :
    Simulates { ba with indicateSeq := seqField seq } ⟨seq.toNat, []⟩ where
  size := idle.size
  counted := idle.counted
  indicate := by
    have hlt := seq.isLt
    change ((seqField seq).toNat : ℤ) = (seq.toNat : ℤ) % 4096
    rw [seqField_toNat]
    omega
  pending := by simp [idle.pending]
  valid := ⟨by simp, by simp⟩

theorem wfRxDataReorderCore_idle (idle : Idle ba) (seq : BitVec 12)
    (skb : α) :
    wfRxDataReorderCore (seqField seq) (some skb) ba =
      wfRxDataReorderCore (seqField seq) (some skb)
        { ba with indicateSeq := seqField seq } := by
  have hset : seqField seq ≠ 0xFFFF := (idle.open seq).indicate.ne_unset
  simp [wfRxDataReorderCore, rxDoChkExpectSeq, idle.indicate, hset]

end Frame

/-! ## The reorder timer -/

theorem rxReorderTimeoutHandle_idle {ba : RecvBaCtrl α}
    (empty : ba.pendingReorderQueue.list = []) :
    rxReorderTimeoutHandle ba =
      some { ba with reorderingCtrlTimer := false } := by
  simp [rxReorderTimeoutHandle, rxPendingReorderGetqueue, empty]

theorem rxReorderTimeoutHandle_effect {ba : RecvBaCtrl α} {window : Window α}
    (sim : Simulates ba window) :
    ∃ ba', rxReorderTimeoutHandle ba = some ba' ∧
      Effect ba ba' window.skip.1 window.skip.2 [] 0 ∧ Armed ba' := by
  obtain ⟨next, held⟩ := window
  cases held with
  | nil =>
      have hlist : ba.pendingReorderQueue.list = [] :=
        List.forall₂_nil_right_iff.mp sim.pending
      refine ⟨_, rxReorderTimeoutHandle_idle hlist, ?_, ?_⟩
      · exact {
          simulates :=
            ⟨sim.size, sim.counted, sim.indicate, sim.pending, sim.valid⟩
          uploaded := by simp [Window.skip]
          freed := by simp
          released := rfl
          poolLength := rfl
          poolCnt := by simp [Window.skip]
          armed := fun _ queued => absurd hlist queued }
      · exact fun queued => absurd hlist queued
  | cons item rest =>
      obtain ⟨node, nodes, hnode, hnodes, hlist⟩ :=
        List.forall₂_cons_right_iff.mp sim.pending
      have inside := sim.valid.inside
      have hfirst := inside item (by simp)
      have hsorted := sim.valid.sorted
      have hbounds : ∀ found ∈ item :: rest, item.1 ≤ found.1 ∧
          found.1 < item.1 + 64 := by
        intro found member
        have := inside found member
        simp only [List.map_cons, List.pairwise_cons] at hsorted
        rcases List.mem_cons.mp member with rfl | member
        · omega
        · have := hsorted.1 found.1 (List.mem_map_of_mem member)
          simp only at *
          omega
      obtain ⟨cnt, ba', hupload, heffect, harmed⟩ := @upload_then_arm _
        { ba with reorderingCtrlTimer := false, indicateSeq := node.seqNum }
        item.1 (item :: rest) sim.size hnode.1 sim.pending sim.counted hsorted
        (fun found member => (hbounds found member).2)
        (fun found member => by
          have := hbounds found member
          omega)
      refine ⟨timerSetIfQueued cnt ba', ?_, ⟨heffect.simulates,
        heffect.uploaded, heffect.freed, heffect.released, heffect.poolLength,
        heffect.poolCnt, fun _ => harmed⟩, harmed⟩
      simp [rxReorderTimeoutHandle, rxPendingReorderGetqueue, hlist, hupload]

/-! ## Emptying the pending queue -/

private theorem freePendingLoop_eq {fuel : Nat} {ba : RecvBaCtrl α}
    (enough : ba.pendingReorderQueue.list.length < fuel)
    (filled : ∀ node ∈ ba.pendingReorderQueue.list, node.pskb.isSome) :
    freePendingLoop fuel ba = { ba with
      pendingReorderQueue := ⟨[], ba.pendingReorderQueue.cnt -
        UInt32.ofNat ba.pendingReorderQueue.list.length⟩
      released := ba.released ++
        ba.pendingReorderQueue.list.map (·.node) } := by
  induction fuel generalizing ba with
  | zero => omega
  | succ fuel ih =>
      obtain ⟨enable, indicateSeq, wendB, wsizeB, ⟨list, cnt⟩, rest⟩ := ba
      cases list with
      | nil => simp [freePendingLoop, rxPendingReorderDequeue]
      | cons node nodes =>
          have hsome : node.pskb.isNone = false := by
            simpa using filled node (by simp)
          simp only [freePendingLoop, rxPendingReorderDequeue, hsome,
            Bool.false_eq_true, if_false]
          rw [ih]
          · simp [UInt32.ofNat_add]
            grind
          · simpa using enough
          · intro found member
            exact filled found (by simp [member])

/--
Every pending node holds a buffer, so the loop never reaches `free_skb`; the
nodes themselves are given to `wf_kfree`.
-/
theorem freePending_eq {ba : RecvBaCtrl α} (hcounted : Counted ba)
    (filled : ∀ node ∈ ba.pendingReorderQueue.list, node.pskb.isSome) :
    freePending ba = { ba with
      pendingReorderQueue := ⟨[], 0⟩
      released := ba.released ++
        ba.pendingReorderQueue.list.map (·.node) } := by
  unfold freePending
  unfold Counted at hcounted
  split
  · rename_i empty
    have hlist : ba.pendingReorderQueue.list = [] := by
      simpa [rxPendingReorderIsEmpty] using empty
    obtain ⟨enable, indicateSeq, wendB, wsizeB, ⟨list, cnt⟩, rest⟩ := ba
    simp only at hlist hcounted
    simp [hlist, hcounted]
  · rw [freePendingLoop_eq (Nat.lt_succ_self _) filled, hcounted]
    simp

/-! ## Steps of a session -/

section Session

variable {ba ba' : RecvBaCtrl α} {session : Option (Window α)}

def sessionStep (session : Option (Window α)) :
    ReorderStep α → Option (Window α)
  | .frame seq skb => some (frameArrival (openWindow session seq) seq skb).1
  | .timeout => session.map fun window => window.skip.1
  | .reinit => none
  | .addba _ => session

theorem InSession.openWindow_valid (h : InSession ba session)
    (seq : BitVec 12) : (openWindow session seq).Valid 64 := by
  cases session with
  | none => exact (Idle.open h seq).valid
  | some window => exact Simulates.valid h

theorem InSession.size (h : InSession ba session) : ba.wsizeB = 64 := by
  cases session with
  | none => exact Idle.size h
  | some window => exact Simulates.size h

theorem InSession.counted (h : InSession ba session) : Counted ba := by
  cases session with
  | none => exact Idle.counted h
  | some window => exact Simulates.counted h

theorem InSession.filled (h : InSession ba session) :
    ∀ node ∈ ba.pendingReorderQueue.list, node.pskb.isSome := by
  cases session with
  | none => simp [Idle.pending h]
  | some window =>
      intro node member
      have held : node.pskb ∈ pendingSkbs ba := List.mem_map_of_mem member
      rw [Simulates.pendingSkbs_eq h] at held
      obtain ⟨item, -, heq⟩ := List.mem_map.mp held
      simp [← heq]

theorem InSession.pending_lt (h : InSession ba session) :
    ba.pendingReorderQueue.list.length < 64 := by
  cases session with
  | none => simp [Idle.pending h]
  | some window => exact Simulates.pending_lt h

private theorem InSession.opened (h : InSession ba session)
    (seq : BitVec 12) :
    ∃ indicateSeq,
      Simulates { ba with indicateSeq } (openWindow session seq) ∧
        ∀ skb, reorderStep ba (.frame seq skb) =
          wfRxDataReorderCore (seqField seq) (some skb)
            { ba with indicateSeq } := by
  cases session with
  | none =>
      exact ⟨seqField seq, Idle.open h seq, wfRxDataReorderCore_idle h seq⟩
  | some window => exact ⟨ba.indicateSeq, h, fun _ => rfl⟩

theorem frame_effect (h : InSession ba session) {seq : BitVec 12} {skb : α}
    (hstep : reorderStep ba (.frame seq skb) = some ba') :
    Effect ba ba' (frameArrival (openWindow session seq) seq skb).1
      (frameArrival (openWindow session seq) seq skb).2.1
      (if (frameArrival (openWindow session seq) seq skb).2.2 then []
        else [skb])
      (if (frameArrival (openWindow session seq) seq skb).2.2 then 1
        else 0) := by
  obtain ⟨indicateSeq, sim, heq⟩ := h.opened seq
  rw [heq] at hstep
  have pool : (frameArrival (openWindow session seq) seq skb).2.2 = true →
      ba.freeOrderQueue.list ≠ [] := by
    intro kept empty
    have hstuck := wfRxDataReorderCore_stuck sim kept empty
    rw [hstuck] at hstep
    contradiction
  obtain ⟨found, hfound, heffect⟩ := wfRxDataReorderCore_effect sim pool
  rw [hstep, Option.some.injEq] at hfound
  subst found
  exact ⟨heffect.simulates, heffect.uploaded, heffect.freed,
    heffect.released, heffect.poolLength, heffect.poolCnt, heffect.armed⟩

theorem frame_returns (h : InSession ba session) (seq : BitVec 12) (skb : α)
    (pool : ba.freeOrderQueue.list ≠ []) :
    ∃ ba', reorderStep ba (.frame seq skb) = some ba' := by
  obtain ⟨indicateSeq, sim, heq⟩ := h.opened seq
  have hpool : (frameArrival (openWindow session seq) seq skb).2.2 = true →
      ba.freeOrderQueue.list ≠ [] := fun _ => pool
  obtain ⟨ba', hstep, -⟩ := wfRxDataReorderCore_effect sim hpool
  exact ⟨ba', by rw [heq, hstep]⟩

theorem frame_stuck (h : InSession ba session) {seq : BitVec 12} {skb : α}
    (kept : (frameArrival (openWindow session seq) seq skb).2.2 = true)
    (empty : ba.freeOrderQueue.list = []) :
    reorderStep ba (.frame seq skb) = none := by
  obtain ⟨indicateSeq, sim, heq⟩ := h.opened seq
  rw [heq]
  exact wfRxDataReorderCore_stuck sim kept empty

theorem timeout_effect {window : Window α} (h : InSession ba (some window))
    (hstep : reorderStep ba .timeout = some ba') :
    Effect ba ba' window.skip.1 window.skip.2 [] 0 ∧ Armed ba' := by
  obtain ⟨found, hfound, heffect⟩ := rxReorderTimeoutHandle_effect h
  rw [reorderStep, hfound, Option.some.injEq] at hstep
  exact hstep ▸ heffect

theorem timeout_idle (h : InSession ba none) :
    reorderStep ba .timeout = some { ba with reorderingCtrlTimer := false } :=
  rxReorderTimeoutHandle_idle (Idle.pending h)

theorem timeout_returns (h : InSession ba session) :
    ∃ ba', reorderStep ba .timeout = some ba' := by
  cases session with
  | none => exact ⟨_, timeout_idle h⟩
  | some window =>
      obtain ⟨ba', hstep, -⟩ := rxReorderTimeoutHandle_effect h
      exact ⟨ba', hstep⟩

theorem reinit_eq (h : InSession ba session) :
    baReinit ba = { ba with
      enable := false, indicateSeq := 0xFFFF, wendB := 0xFFFF
      pendingReorderQueue := ⟨[], 0⟩
      released := ba.released ++
        ba.pendingReorderQueue.list.map (·.node) } := by
  rw [baReinit, freePending_eq]
  · exact h.counted
  · exact h.filled

/-- Every step that returns is the step of the session. -/
theorem reorderStep_inSession (h : InSession ba session)
    {step : ReorderStep α} (hstep : reorderStep ba step = some ba') :
    InSession ba' (sessionStep session step) := by
  cases step with
  | frame seq skb => exact (frame_effect h hstep).simulates
  | timeout =>
      cases session with
      | none =>
          rw [timeout_idle h, Option.some.injEq] at hstep
          subst ba'
          have idle : Idle ba := h
          exact ⟨idle.size, idle.counted, idle.indicate, idle.pending⟩
      | some window => exact (timeout_effect h hstep).1.simulates
  | reinit =>
      rw [reorderStep, reinit_eq h, Option.some.injEq] at hstep
      subst ba'
      exact ⟨h.size, rfl, rfl, rfl⟩
  | addba waitTimeout =>
      rw [reorderStep, Option.some.injEq] at hstep
      subst ba'
      cases session with
      | none =>
          have idle : Idle ba := h
          exact ⟨idle.size, idle.counted, idle.indicate, idle.pending⟩
      | some window =>
          have sim : Simulates ba window := h
          exact ⟨sim.size, sim.counted, sim.indicate, sim.pending, sim.valid⟩

theorem reorderStep_armed (h : InSession ba session) (armed : Armed ba)
    {step : ReorderStep α} (hstep : reorderStep ba step = some ba') :
    Armed ba' := by
  cases step with
  | frame seq skb => exact (frame_effect h hstep).armed armed
  | timeout =>
      cases session with
      | none =>
          rw [timeout_idle h, Option.some.injEq] at hstep
          subst ba'
          exact fun queued => absurd (Idle.pending h) queued
      | some window => exact (timeout_effect h hstep).2
  | reinit =>
      rw [reorderStep, reinit_eq h, Option.some.injEq] at hstep
      subst ba'
      exact fun queued => absurd rfl queued
  | addba waitTimeout =>
      rw [reorderStep, Option.some.injEq] at hstep
      subst ba'
      exact armed

theorem baCtlInit_inSession (kzalloc : Nat → Bool) :
    InSession (baCtlInit kzalloc : RecvBaCtrl α) none :=
  ⟨rfl, rfl, rfl, rfl⟩

/-! ## Frames that arrive in sequence -/

def InSequence (ba : RecvBaCtrl α) (seq : BitVec 12) : Prop :=
  ba.indicateSeq = 0xFFFF ∨ ba.indicateSeq = seqField seq

theorem InSequence.position (h : InSession ba session) {seq : BitVec 12}
    (inSequence : InSequence ba seq) :
    framePosition (openWindow session seq).next seq =
      (openWindow session seq).next := by
  cases session with
  | none => exact framePosition_self seq
  | some window =>
      have sim : Simulates ba window := h
      have expected := inSequence.resolve_left sim.indicate.ne_unset
      apply framePosition_expected
      rw [← expected]
      exact sim.indicate

theorem InSession.pendingSkbs_eq (h : InSession ba session) (seq : BitVec 12) :
    pendingSkbs ba =
      (openWindow session seq).held.map fun item => some item.2 := by
  cases session with
  | none => rw [pendingSkbs, Idle.pending h]; rfl
  | some window => exact Simulates.pendingSkbs_eq h

theorem InSequence.kept (h : InSession ba session) {seq : BitVec 12}
    (inSequence : InSequence ba seq) (skb : α) :
    ∃ released,
      (frameArrival (openWindow session seq) seq skb).2 =
          (((openWindow session seq).next, skb) :: released, true) ∧
        released ++ (frameArrival (openWindow session seq) seq skb).1.held =
          (openWindow session seq).held := by
  rw [frameArrival, inSequence.position h]
  exact Window.arrive_expected (h.openWindow_valid seq) skb

theorem inSequence_returns_iff (h : InSession ba session) {seq : BitVec 12}
    (inSequence : InSequence ba seq) (skb : α) :
    (∃ ba', reorderStep ba (.frame seq skb) = some ba') ↔
      ba.freeOrderQueue.list ≠ [] := by
  constructor
  · rintro ⟨ba', hstep⟩ empty
    obtain ⟨released, hkept, -⟩ := inSequence.kept h skb
    rw [frame_stuck h (by rw [hkept]) empty] at hstep
    contradiction
  · exact frame_returns h seq skb

theorem inSequence_uploaded (h : InSession ba session) {seq : BitVec 12}
    (inSequence : InSequence ba seq) {skb : α}
    (hstep : reorderStep ba (.frame seq skb) = some ba') :
    ∃ released waiting, pendingSkbs ba = released.map some ++ waiting ∧
      ba'.uploaded = ba.uploaded ++ skb :: released := by
  obtain ⟨released, hkept, hheld⟩ := inSequence.kept h skb
  have effect := frame_effect h hstep
  refine ⟨released.map Prod.snd,
    (frameArrival (openWindow session seq) seq skb).1.held.map
      fun item => some item.2, ?_, ?_⟩
  · rw [h.pendingSkbs_eq seq, ← hheld, List.map_append, List.map_map]
    rfl
  · rw [effect.uploaded, hkept]
    rfl

end Session

end Smartchip.Rx
