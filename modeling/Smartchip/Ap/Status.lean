import Smartchip.Ap.Thread

/-!
# The status of the access point

`maintain_thrd` sets the status for each station that is associated, and `clearup` sets it
back when no WDN is left.  The WDN for broadcasts and those of stations that are still being
authenticated count as well, and a station that is associated again does not come by.
-/

namespace Smartchip.Ap

open Smartchip.Foundation Smartchip.Frame

/-- The thread of the station is in the loop of `maintain_thrd`. -/
def InMaintain (node : ApNode) : Prop := ∃ pc, node.pc = .maintain pc ∧ pc ≠ .begun

/-- `WF_AP_STATUS_ESTABLISHED` while a station is maintained, and `WF_AP_STATUS_STANBY` once
the last one has left. -/
structure StatusTracks (s : ApSystem) : Prop where
  up : (∃ n ∈ s.head, InMaintain (s.nodes n)) → s.status = .established
  down : (∀ n ∈ s.head, (s.nodes n).joined = false) → s.status = .stanby

/-- No other station has joined. -/
def LastStation (s : ApSystem) (n : Nat) : Prop :=
  (s.nodes n).joined = true ∧ ∀ m ∈ s.head, m ≠ n → (s.nodes m).joined = false

/-- The last station is not removed while there is another WDN, and does not leave to be
associated again. -/
def LeavesLast (s : ApSystem) (n : Nat) : Prop :=
  match (s.nodes n).pc with
  | .maintain .disassoc => (headMsg s n).map ApMsg.tag ≠ some .assocReqFrame
  | .remove => s.head = [n]
  | _ => True

def KeepsStatus (s : ApSystem) : ApEvent → Prop
  | .thrd n _ => n ∈ s.head → LastStation s n → LeavesLast s n
  | _ => True

/-! ## What a step does to the status -/

structure StatusOk (s : ApSystem) : Prop where
  lists : ListOk s
  nodes : NodesOk s
  joined : ∀ n, InMaintain (s.nodes n) → (s.nodes n).joined = true
  up : ∀ n ∈ s.head, (s.nodes n).joined = true → s.status = .established

/-- What a step leaves of the stations that have joined. -/
structure SameJoined (s s' : ApSystem) : Prop where
  head : s'.head = s.head
  joined : ∀ n, (s'.nodes n).joined = (s.nodes n).joined
  phase : ∀ n, InMaintain (s'.nodes n) → InMaintain (s.nodes n)
  status : s'.status = s.status

section Steps

variable {cfg : ApConfig} {s s' : ApSystem} {n : Nat} {a : ApAnswers}

theorem StatusOk.tracks (ok : StatusOk s)
    (down : (∀ n ∈ s.head, (s.nodes n).joined = false) → s.status = .stanby) :
    StatusTracks s := by
  refine ⟨?_, down⟩
  rintro ⟨n, listed, phase⟩
  exact ok.up n listed (ok.joined n phase)

theorem StatusOk.same (ok : StatusOk s) (lists : ListOk s') (nodes : NodesOk s')
    (kept : SameJoined s s') : StatusOk s' where
  lists := lists
  nodes := nodes
  joined m phase := by
    rw [kept.joined m]
    exact ok.joined m (kept.phase m phase)
  up m listed joined := by
    rw [kept.head] at listed
    rw [kept.joined m] at joined
    rw [kept.status]
    exact ok.up m listed joined

theorem StatusTracks.same (good : StatusTracks s) (kept : SameJoined s s') :
    StatusTracks s' where
  up := by
    rw [kept.head, kept.status]
    rintro ⟨m, listed, phase⟩
    exact good.up ⟨m, listed, kept.phase m phase⟩
  down := by
    rw [kept.head, kept.status]
    simp only [kept.joined]
    exact good.down

/-- A step of the thread of a WDN that has not been maintained, or is not any more. -/
theorem Keeps.sameJoined (kept : Keeps n s s') (status : s'.status = s.status)
    (joined : (s'.nodes n).joined = (s.nodes n).joined)
    (phase : InMaintain (s'.nodes n) → InMaintain (s.nodes n)) : SameJoined s s' where
  head := kept.head
  joined m := by
    by_cases same : m = n
    · rw [same, joined]
    · rw [kept.others m same]
  phase m := by
    by_cases same : m = n
    · rw [same]
      exact phase
    · rw [kept.others m same]
      exact id
  status := status

theorem authPhase_same (pc : AuthPc) : SameJoined s (authPhase cfg s n pc a) := by
  refine (authPhase_keeps pc).sameJoined (by simp [authPhase]) (by simp [authPhase]) ?_
  rintro ⟨pc', here, -⟩
  simp only [authPhase, setNode_nodes, Function.update_self] at here
  split at here <;> cases here

theorem assocPhase_same : SameJoined s (assocPhase cfg s n a) := by
  refine assocPhase_keeps.sameJoined (by simp [assocPhase]) (by simp [assocPhase]) ?_
  rintro ⟨pc, here, begun⟩
  simp only [assocPhase, setNode_nodes, Function.update_self] at here
  split at here <;> cases here
  exact absurd rfl begun

theorem clearupPhase_same : SameJoined s (clearupPhase s n) := by
  obtain ⟨msgFree, eq⟩ := apMsgQueClearup_eq s n
  refine clearupPhase_keeps.sameJoined (by simp [clearupPhase, eq])
    (by simp [clearupPhase, eq]) ?_
  rintro ⟨pc, here, -⟩
  simp [clearupPhase] at here

/-- The beginning of `maintain_thrd`. -/
theorem maintainPhase_begun (cfg : ApConfig) (s : ApSystem) (n : Nat) (a : ApAnswers) :
    ((maintainPhase cfg s n .begun a).nodes n).joined = true ∧
      (maintainPhase cfg s n .begun a).status = .established := by
  simp [maintainPhase, maintainThrd, beginMaintain, goOn]

/-- A station leaves `maintain_thrd` for `wf_assoc_ap_thrd`. -/
def GoesBack (s : ApSystem) (n : Nat) (pc : MaintainPc) : Prop :=
  pc = .disassoc ∧ (headMsg s n).map ApMsg.tag = some .assocReqFrame

theorem maintainPhase_stays (ok : NodeOk (s.nodes n)) {pc : MaintainPc}
    (here : (s.nodes n).pc = .maintain pc) (begun : pc ≠ .begun)
    (stays : ¬ GoesBack s n pc) : SameJoined s (maintainPhase cfg s n pc a) := by
  have move := maintainThrd_move cfg.auth.dot11AuthAlgrthm ((headMsg s n).map ApMsg.tag)
    a.expired (ok.maintained pc here)
  have quiet := (Bool.not_eq_true _).mp (mt move.established.mp begun)
  have back := mt move.back.mp stays
  refine (maintainPhase_keeps pc).sameJoined (by simp [maintainPhase, quiet]) ?_ ?_
  · simp only [maintainPhase, setNode_nodes, Function.update_self, quiet, Bool.or_false]
    simp only [back, not_false_eq_true, decide_true, Bool.and_true]
  · intro phase
    exact ⟨pc, here, begun⟩

theorem maintainPhase_back (cfg : ApConfig) (a : ApAnswers) (ok : NodeOk (s.nodes n))
    {pc : MaintainPc} (here : (s.nodes n).pc = .maintain pc) (back : GoesBack s n pc) :
    ((maintainPhase cfg s n pc a).nodes n).joined = false ∧
      ((maintainPhase cfg s n pc a).nodes n).pc = .assoc ∧
      (maintainPhase cfg s n pc a).status = s.status := by
  have move := maintainThrd_move cfg.auth.dot11AuthAlgrthm ((headMsg s n).map ApMsg.tag)
    a.expired (ok.maintained pc here)
  have begun : pc ≠ .begun := by
    rw [back.1]
    simp
  have quiet := (Bool.not_eq_true _).mp (mt move.established.mp begun)
  obtain ⟨ended, state⟩ := move.back.mpr back
  simp [maintainPhase, quiet, ended, state]

/-- The states of a step of the thread behind the beginning and the end of `maintain_thrd`. -/
theorem StatusOk.set (ok : StatusOk s) (lists : ListOk s') (nodes : NodesOk s')
    (kept : Keeps n s s') (joined : InMaintain (s'.nodes n) → (s'.nodes n).joined = true)
    (up : (s'.nodes n).joined = true → s'.status = .established)
    (status : s.status = .established → s'.status = .established) : StatusOk s' where
  lists := lists
  nodes := nodes
  joined m := by
    by_cases same : m = n
    · rw [same]
      exact joined
    · rw [kept.others m same]
      exact ok.joined m
  up m listed := by
    rw [kept.head] at listed
    by_cases same : m = n
    · rw [same]
      exact up
    · rw [kept.others m same]
      exact fun member => status (ok.up m listed member)

theorem StatusOk.maintain (ok : StatusOk s) {pc : MaintainPc}
    (here : (s.nodes n).pc = .maintain pc) (lists : ListOk (maintainPhase cfg s n pc a))
    (nodes : NodesOk (maintainPhase cfg s n pc a)) :
    StatusOk (maintainPhase cfg s n pc a) := by
  by_cases begun : pc = .begun
  · subst begun
    obtain ⟨joined, status⟩ := maintainPhase_begun cfg s n a
    exact ok.set lists nodes (maintainPhase_keeps _) (fun _ => joined) (fun _ => status)
      (fun _ => status)
  · by_cases back : GoesBack s n pc
    · obtain ⟨left, pc', status⟩ := maintainPhase_back cfg a (ok.nodes n) here back
      refine ok.set lists nodes (maintainPhase_keeps _) ?_ ?_ ?_
      · rintro ⟨pc'', here', -⟩
        cases pc'.symm.trans here'
      · rw [left]
        simp
      · rw [status]
        exact id
    · exact ok.same lists nodes (maintainPhase_stays (ok.nodes n) here begun back)

theorem StatusOk.remove (ok : StatusOk s) (listed : n ∈ s.head)
    (nodes : NodesOk (removePhase s n)) : StatusOk (removePhase s n) := by
  have lists := ok.lists.remove listed
  rw [ok.lists.removePhase_eq listed] at lists nodes ⊢
  refine ⟨lists, nodes, fun m => ?_, fun m listed' joined => ?_⟩
  · by_cases same : m = n
    · subst same
      rintro ⟨pc, here, -⟩
      simp at here
    · simpa [Function.update_of_ne same] using ok.joined m
  · by_cases same : m = n
    · subst same
      simp at joined
    · have some : s.head.erase n ≠ [] := List.ne_nil_of_mem listed'
      simp only [setNode_nodes, Function.update_of_ne same] at joined
      simpa [some] using ok.up m (List.mem_of_mem_erase listed') joined

theorem StatusOk.thrd (ok : StatusOk s) (listed : n ∈ s.head) :
    StatusOk (apThrd cfg s n a) := by
  have lists : ListOk (apThrd cfg s n a) := ok.lists.thrd listed
  have nodes : NodesOk (apThrd cfg s n a) := ok.nodes.thrd ok.lists listed
  have phase := apThrd_phase cfg s n a
  generalize apThrd cfg s n a = s' at lists nodes phase
  cases phase with
  | auth here => exact ok.same lists nodes (authPhase_same _)
  | assoc here => exact ok.same lists nodes assocPhase_same
  | maintain here => exact ok.maintain here lists nodes
  | clearup here => exact ok.same lists nodes clearupPhase_same
  | remove here => exact ok.remove listed nodes

/-! ### Frames and packets -/

theorem recvFind_same (tag : ApMsgTag) (sa : MacAddr) (frame : List UInt8) :
    SameJoined s (recvFind s tag sa frame) := by
  unfold recvFind
  split <;> exact ⟨rfl, fun _ => rfl, fun _ => id, rfl⟩

theorem takePending_same (ctx : Ctx) : SameJoined s (takePending s ctx) :=
  ⟨rfl, fun _ => rfl, fun _ => id, rfl⟩

theorem countPacket_same : SameJoined s (countPacket s n) :=
  countPacket_keeps.sameJoined rfl (by simp [countPacket]) (by simp [countPacket, InMaintain])

theorem wfApMsgLoad_same (tag : ApMsgTag) (frame : List UInt8) (stale : Mem) :
    SameJoined s (wfApMsgLoad s n tag frame stale) := by
  have kept := wfApMsgLoad_keeps (n := n) (s := s) tag frame stale
  obtain ⟨que, msgFree, msgs, eq⟩ := wfApMsgLoad_eq s n tag frame stale
  rw [eq] at kept ⊢
  exact kept.sameJoined rfl (by simp) (by simp [InMaintain])

theorem StatusOk.addStation (ok : StatusOk s) {rest : List Nat} {id : Nat} {mac : MacAddr}
    (lists : ListOk (addStation s n rest mac id))
    (nodes : NodesOk (addStation s n rest mac id)) :
    StatusOk (addStation s n rest mac id) := by
  refine ⟨lists, nodes, fun m => ?_, fun m listed joined => ?_⟩
  · by_cases same : m = n
    · subst same
      rintro ⟨pc, here, -⟩
      simp [Ap.addStation, stationNode, newNode] at here
    · simpa [Ap.addStation, Function.update_of_ne same] using ok.joined m
  · by_cases same : m = n
    · subst same
      simp [Ap.addStation, stationNode, newNode] at joined
    · simp only [Ap.addStation, setNode_nodes, Function.update_of_ne same] at joined
      refine ok.up m ?_ joined
      simpa [Ap.addStation, same] using listed

theorem StatusTracks.addStation (good : StatusTracks s) {rest : List Nat} {id : Nat}
    {mac : MacAddr} (fresh : ∀ m ∈ s.head, m ≠ n) (ok : StatusOk (addStation s n rest mac id)) :
    StatusTracks (addStation s n rest mac id) := by
  refine ok.tracks fun none => good.down fun m listed => ?_
  have left := none m (List.mem_append_left _ listed)
  simpa [Ap.addStation, Function.update_of_ne (fresh m listed)] using left

theorem StatusOk.recvLoad (ok : StatusOk s) (ctx : Ctx) (stale : Mem) :
    StatusOk (recvLoad s ctx stale) ∧
      (StatusTracks s → StatusTracks (recvLoad s ctx stale)) := by
  have lists := ok.lists.load ctx stale
  have nodes := ok.nodes.load ok.lists ctx stale
  have loads := ok.lists.loads ctx stale
  generalize Ap.recvLoad s ctx stale = s' at lists nodes loads
  cases loads with
  | idle none => exact ⟨ok, id⟩
  | dropped waits stray =>
      have kept := takePending_same (s := s) ctx
      exact ⟨ok.same lists nodes kept, fun good => good.same kept⟩
  | known waits node short =>
      have kept := takePending_same (s := s) ctx
      have taken := ok.same (ok.lists.take ctx) ok.nodes kept
      exact ⟨taken.same lists nodes (wfApMsgLoad_same ..),
        fun good => (good.same kept).same (wfApMsgLoad_same ..)⟩
  | @station p n id rest waits isRx node short free fresh =>
      subst isRx
      have kept := takePending_same (s := s) .rx
      have taken := ok.same (ok.lists.take .rx) ok.nodes kept
      have idle : (takePending s .rx).pending .rx = none := by simp [takePending]
      have unknown := ok.lists.absent p waits node
      have added : StatusOk (Ap.addStation (takePending s .rx) n rest p.sa id) :=
        taken.addStation (taken.lists.addStation id free idle unknown)
          (taken.nodes.addStation (newWdnId_lt fresh) n rest p.sa)
      have old : ∀ m ∈ (takePending s .rx).head, m ≠ n := by
        intro m listed same
        refine ok.lists.not_free (same ▸ listed) ?_
        rw [free]
        exact List.mem_cons_self
      exact ⟨added.same lists nodes (wfApMsgLoad_same ..),
        fun good => ((good.same kept).addStation old added).same (wfApMsgLoad_same ..)⟩

/-! ### The thread -/

theorem maintain_tracks_iff (ok : StatusOk s) (good : StatusTracks s) (listed : n ∈ s.head)
    {pc : MaintainPc} (here : (s.nodes n).pc = .maintain pc)
    (next : StatusOk (maintainPhase cfg s n pc a)) :
    StatusTracks (maintainPhase cfg s n pc a) ↔ (LastStation s n → LeavesLast s n) := by
  have kept : Keeps n s (maintainPhase cfg s n pc a) := maintainPhase_keeps pc
  by_cases begun : pc = .begun
  · subst begun
    obtain ⟨joined, -⟩ := maintainPhase_begun cfg s n a
    refine iff_of_true (next.tracks fun none => ?_) ?_
    · have left := none n (kept.head.symm ▸ listed)
      rw [joined] at left
      cases left
    · simp [LeavesLast, here]
  by_cases back : GoesBack s n pc
  · obtain ⟨left, -, status⟩ := maintainPhase_back cfg a (ok.nodes n) here back
    have refused : ¬ LeavesLast s n := by
      obtain ⟨rfl, request⟩ := back
      simp [LeavesLast, here, request]
    have joined := ok.joined n ⟨pc, here, begun⟩
    constructor
    · intro tracks last
      have none : ∀ m ∈ (maintainPhase cfg s n pc a).head,
          ((maintainPhase cfg s n pc a).nodes m).joined = false := by
        intro m member
        by_cases same : m = n
        · rw [same, left]
        · rw [kept.others m same]
          exact last.2 m (kept.head ▸ member) same
      have down := tracks.down none
      rw [status, ok.up n listed joined] at down
      cases down
    · intro leaves
      refine next.tracks fun none => absurd (leaves ⟨joined, fun m member same => ?_⟩) refused
      rw [← kept.others m same]
      exact none m (kept.head.symm ▸ member)
  · refine iff_of_true (good.same (maintainPhase_stays (ok.nodes n) here begun back)) ?_
    intro last
    cases pc with
    | begun => exact absurd rfl begun
    | poll => simp [LeavesLast, here]
    | disassoc => simpa [LeavesLast, here, GoesBack] using back

theorem remove_tracks_iff (ok : StatusOk s) (good : StatusTracks s) (listed : n ∈ s.head)
    (here : (s.nodes n).pc = .remove) (next : StatusOk (removePhase s n)) :
    StatusTracks (removePhase s n) ↔ (LastStation s n → LeavesLast s n) := by
  have once : s.head.Nodup := (List.nodup_append.mp ok.lists.nodup).1
  rw [ok.lists.removePhase_eq listed] at next ⊢
  have single : s.head.erase n = [] ↔ s.head = [n] := by
    rw [List.erase_eq_nil_iff]
    exact or_iff_right (List.ne_nil_of_mem listed)
  simp only [LeavesLast, here]
  constructor
  · rintro tracks ⟨joined, others⟩
    by_contra more
    have none : ∀ m ∈ s.head.erase n, (Function.update s.nodes n
        { s.nodes n with pc := .auth .seq1, joined := false } m).joined = false := by
      intro m member
      obtain ⟨ne, before⟩ := (once.mem_erase_iff).mp member
      rw [Function.update_of_ne ne]
      exact others m before ne
    have down := tracks.down none
    simp only [single, more, if_false, ok.up n listed joined] at down
    cases down
  · intro leaves
    refine next.tracks fun none => ?_
    have others : ∀ m ∈ s.head, m ≠ n → (s.nodes m).joined = false := by
      intro m member ne
      have left := none m ((List.mem_erase_of_ne ne).mpr member)
      simpa [Function.update_of_ne ne] using left
    dsimp only
    by_cases more : s.head.erase n = []
    · rw [if_pos more]
    · rw [if_neg more]
      refine good.down fun m member => ?_
      by_cases same : m = n
      · rw [same]
        by_contra joined
        exact more (single.mpr (leaves ⟨(Bool.not_eq_false _).mp joined, others⟩))
      · exact others m member same

theorem thrd_tracks_iff (ok : StatusOk s) (good : StatusTracks s) (listed : n ∈ s.head) :
    StatusTracks (apThrd cfg s n a) ↔ (LastStation s n → LeavesLast s n) := by
  have next : StatusOk (apThrd cfg s n a) := ok.thrd listed
  have phase := apThrd_phase cfg s n a
  generalize apThrd cfg s n a = s' at next phase
  cases phase with
  | auth here => exact iff_of_true (good.same (authPhase_same _)) (by simp [LeavesLast, here])
  | assoc here => exact iff_of_true (good.same assocPhase_same) (by simp [LeavesLast, here])
  | maintain here => exact maintain_tracks_iff ok good listed here next
  | clearup here =>
      exact iff_of_true (good.same clearupPhase_same) (by simp [LeavesLast, here])
  | remove here => exact remove_tracks_iff ok good listed here next

/-! ## Runs -/

theorem StatusOk.step (ok : StatusOk s) (event : ApEvent)
    (moved : apStep cfg s event = some s') : StatusOk s' := by
  have lists := ok.lists.step event moved
  have nodes := ok.nodes.step ok.lists event moved
  cases event with
  | find tag sa frame =>
      cases moved
      exact ok.same lists nodes (recvFind_same tag sa frame)
  | load ctx stale =>
      cases moved
      exact (ok.recvLoad ctx stale).1
  | packet n =>
      cases moved
      exact ok.same lists nodes countPacket_same
  | thrd n a =>
      cases moved
      split_ifs with listed
      · exact ok.thrd listed
      · exact ok

theorem StatusOk.precise (ok : StatusOk s) (good : StatusTracks s) (event : ApEvent) :
    KeepsStatus s event ↔ ∃ next, apStep cfg s event = some next ∧ StatusTracks next := by
  cases event with
  | find tag sa frame =>
      exact iff_of_true trivial ⟨_, rfl, good.same (recvFind_same tag sa frame)⟩
  | load ctx stale => exact iff_of_true trivial ⟨_, rfl, (ok.recvLoad ctx stale).2 good⟩
  | packet n => exact iff_of_true trivial ⟨_, rfl, good.same countPacket_same⟩
  | thrd n a =>
      by_cases listed : n ∈ s.head
      · simp [KeepsStatus, apStep, listed, thrd_tracks_iff ok good listed]
      · simp [KeepsStatus, apStep, listed, good]

theorem statusOk_start : StatusOk apStart where
  lists := listOk_start
  nodes := nodesOk_start
  joined := by
    rintro n ⟨pc, here, -⟩
    cases here
  up := by
    intro n listed joined
    cases joined

theorem statusTracks_start : StatusTracks apStart where
  up := by
    rintro ⟨n, listed, pc, here, -⟩
    cases here
  down _ := rfl

end Steps

/-- The status tracks the stations exactly in the runs in which the last one is removed as
the last WDN, and never goes back to be associated again. -/
theorem status_tracks_iff (cfg : ApConfig) (events : List ApEvent) :
    Throughout (apStep cfg) StatusTracks apStart events ↔
      EachStep (apStep cfg) KeepsStatus apStart events :=
  throughout_iff_eachStep StatusOk (fun _ _ event ok moved => ok.step event moved)
    (fun _ event ok good => ok.precise good event) statusOk_start statusTracks_start

theorem status_not_tracks :
    ¬ ∀ cfg events, Throughout (apStep cfg) StatusTracks apStart events := by
  intro always
  obtain ⟨final, ran, good⟩ := (always openCfg joinsAndLeaves).final
  have left : (run (apStep openCfg) apStart joinsAndLeaves).map (fun s =>
      (s.status, s.head.map fun n => (s.nodes n).joined)) = some (.established, [false]) := by
    decide +kernel
  simp only [ran, Option.map_some, Option.some.injEq, Prod.mk.injEq] at left
  obtain ⟨status, joined⟩ := left
  have none : ∀ n ∈ final.head, (final.nodes n).joined = false := by
    intro n listed
    have member := List.mem_map_of_mem (f := fun n => (final.nodes n).joined) listed
    rw [joined] at member
    simpa using member
  rw [good.down none] at status
  cases status

end Smartchip.Ap
