import Smartchip.Ap.Thread
import Smartchip.Foundation.Custody

/-!
# The messages of an access point

Each of the messages that `ap_msg_que_init` allocates is in the free queue of its tag or in
the queue of one WDN.  The report of an association reads the message that was freed before,
and a frame that comes in while a WDN is removed takes its message away with it.
-/

namespace Smartchip.Ap

open Smartchip.Foundation Smartchip.Frame

def allTags : List ApMsgTag :=
  [.authFrame, .deauthFrame, .assocReqFrame, .disassocFrame, .baReqFrame]

def poolSize : Nat := 46

/-- The tag that a message was allocated for. -/
def allocTag (id : Nat) : ApMsgTag :=
  if id < ApMsgTag.deauthFrame.first then .authFrame
  else if id < ApMsgTag.assocReqFrame.first then .deauthFrame
  else if id < ApMsgTag.disassocFrame.first then .assocReqFrame
  else if id < ApMsgTag.baReqFrame.first then .disassocFrame
  else .baReqFrame

def ques (s : ApSystem) : Nat → List Nat := fun n => (s.nodes n).que

/-- What the free queues and the WDNs in the list hold. -/
def held (s : ApSystem) : List Nat := heldBy allTags s.msgFree ++ heldBy s.head (ques s)

/-- Every message is in one place, a free queue holds messages of its own size only, and no
message has been read behind its end. -/
structure Conserved (s : ApSystem) : Prop where
  placed : (held s).Perm (List.range poolSize)
  depth : ∀ tag, ((held s).filter fun id => allocTag id = tag).length = tag.depth
  sized : ∀ tag, ∀ id ∈ s.msgFree tag, allocTag id = tag
  unread : s.readFreed = false

/-- The frame that waits is not loaded on a WDN that is gone. -/
def LoadsListed (s : ApSystem) (ctx : Ctx) : Prop :=
  ∀ p n, s.pending ctx = some p → p.node = some n → p.frame.length ≤ p.tag.sizeMax →
    s.msgFree p.tag ≠ [] → n ∈ s.head

/-- The elements of an association request at the head of the queue pass. -/
def AssocPasses (cfg : ApConfig) (s : ApSystem) (n : Nat) (a : AssocAnswers) : Prop :=
  ∃ msg last, headMsg s n = some msg ∧ msg.tag = .assocReqFrame ∧
    let pvar := variableOfs (wf80211GetFrameType msg.mgmt)
    let varLen := msg.len - UInt16.ofNat pvar
    assocElements cfg.net cfg.assoc msg.mgmt pvar varLen (varLen.toNat + 1) 0
      ⟨clearInfo (s.nodes n).info, a.rsn, a.wpa⟩ = some (.ok last)

/-- A WDN that is removed has no message, and no association is accepted. -/
def ThrdKeeps (cfg : ApConfig) (s : ApSystem) (n : Nat) (a : ApAnswers) : Prop :=
  ((s.nodes n).pc = .remove → (s.nodes n).que = []) ∧
    ((s.nodes n).pc = .assoc → ¬ AssocPasses cfg s n a.assoc)

def KeepsMessages (cfg : ApConfig) (s : ApSystem) : ApEvent → Prop
  | .load ctx _ => LoadsListed s ctx
  | .thrd n a => n ∈ s.head → ThrdKeeps cfg s n a
  | _ => True

/-! ## Messages that move -/

/-- The part of `Conserved` that the queues have to say, with the tags of the messages. -/
structure Placed (s : ApSystem) : Prop where
  once : s.head.Nodup
  placed : (held s).Perm (List.range poolSize)
  sized : ∀ tag, ∀ id ∈ s.msgFree tag, allocTag id = tag
  queued : ∀ n ∈ s.head, ∀ id ∈ ques s n, (s.msgs id).tag = allocTag id

section Moves

variable {cfg : ApConfig} {s s' : ApSystem} {n : Nat} {a : ApAnswers}

theorem ques_set {node : ApNode} (nodes : s'.nodes = Function.update s.nodes n node) :
    ques s' = Function.update (ques s) n node.que := by
  funext m
  by_cases same : m = n
  · subst same
    simp [ques, nodes]
  · simp [ques, nodes, same]

theorem ques_same {node : ApNode} (nodes : s'.nodes = Function.update s.nodes n node)
    (que : node.que = (s.nodes n).que) : ques s' = ques s := by
  rw [ques_set nodes, que]
  exact Function.update_eq_self n (ques s)

theorem Placed.same (ok : Placed s) (head : s'.head = s.head) (que : ques s' = ques s)
    (msgFree : s'.msgFree = s.msgFree) (tags : ∀ id, (s'.msgs id).tag = (s.msgs id).tag) :
    Placed s' := by
  constructor
  · rw [head]
    exact ok.once
  · simp only [held, head, que, msgFree]
    exact ok.placed
  · rw [msgFree]
    exact ok.sized
  · simp only [head, que, tags]
    exact ok.queued

theorem mem_allTags (tag : ApMsgTag) : tag ∈ allTags := by
  cases tag <;> simp [allTags]

theorem allTags_nodup : allTags.Nodup := by decide

theorem Placed.msgFree (ok : Placed s) (listed : n ∈ s.head) : Placed (wfApMsgFree s n) := by
  have nodes : (wfApMsgFree s n).nodes =
      Function.update s.nodes n { s.nodes n with que := (s.nodes n).que.tail } := rfl
  cases que : (s.nodes n).que with
  | nil =>
      refine ok.same rfl (ques_same nodes (by simp [que])) ?_ fun _ => rfl
      simp [wfApMsgFree, que]
  | cons id rest =>
      have mine : ques s n = id :: rest := que
      have tag : (s.msgs id).tag = allocTag id := by
        refine ok.queued n listed id ?_
        rw [mine]
        exact List.mem_cons_self
      have after : ques (wfApMsgFree s n) = Function.update (ques s) n rest := by
        rw [ques_set nodes, que]
        rfl
      have free : (wfApMsgFree s n).msgFree =
          Function.update s.msgFree (allocTag id) (id :: s.msgFree (allocTag id)) := by
        simp only [wfApMsgFree, que, tag]
      constructor
      · exact ok.once
      · have enters := heldBy_put allTags_nodup (mem_allTags (allocTag id))
          (List.Perm.refl (id :: s.msgFree (allocTag id)))
        have leaves := heldBy_take ok.once listed mine
        calc
          (held (wfApMsgFree s n)).Perm
              ((id :: heldBy allTags s.msgFree) ++
                heldBy s.head (Function.update (ques s) n rest)) := by
            simp only [held, after, free]
            exact enters.append_right _
          List.Perm _ (heldBy allTags s.msgFree ++
              (id :: heldBy s.head (Function.update (ques s) n rest))) :=
            List.perm_middle.symm
          List.Perm _ (held s) := leaves.append_left _
          List.Perm _ (List.range poolSize) := ok.placed
      · intro other i member
        rw [free] at member
        rcases mem_update_que member with ⟨rfl, new⟩ | old
        · rcases List.mem_cons.mp new with rfl | old
          · rfl
          · exact ok.sized _ i old
        · exact ok.sized other i old
      · intro m listed' i member
        rw [after] at member
        refine ok.queued m listed' i ?_
        rcases mem_update_que member with ⟨rfl, left⟩ | old
        · rw [mine]
          exact List.mem_cons_of_mem id left
        · exact old

theorem Placed.freeIf (ok : Placed s) (listed : n ∈ s.head) (freed : Bool) :
    Placed (freeIf s n freed) := by
  cases freed with
  | true => exact ok.msgFree listed
  | false => exact ok

theorem Placed.clearup (ok : Placed s) (listed : n ∈ s.head) :
    Placed (apMsgQueClearup s n) := by
  unfold apMsgQueClearup
  generalize (s.nodes n).que = que
  induction que generalizing s with
  | nil => exact ok
  | cons id rest ih => exact ih (ok.msgFree listed) listed

/-- The queues behind a frame that is loaded. -/
theorem load_cons {tag : ApMsgTag} {frame : List UInt8} {stale : Mem} {id : Nat}
    {rest : List Nat} (stock : s.msgFree tag = id :: rest) :
    wfApMsgLoad s n tag frame stale = {
      s.setNode n { s.nodes n with que := (s.nodes n).que ++ [id] } with
      msgFree := Function.update s.msgFree tag rest
      msgs := Function.update s.msgs id (fillMsg stale tag frame) } := by
  simp only [wfApMsgLoad, stock]

theorem load_nil {tag : ApMsgTag} {frame : List UInt8} {stale : Mem}
    (empty : s.msgFree tag = []) : wfApMsgLoad s n tag frame stale = s := by
  simp only [wfApMsgLoad, empty]

theorem Placed.load (ok : Placed s) (listed : n ∈ s.head) (tag : ApMsgTag)
    (frame : List UInt8) (stale : Mem) : Placed (wfApMsgLoad s n tag frame stale) := by
  cases free : s.msgFree tag with
  | nil =>
      rw [load_nil free]
      exact ok
  | cons id rest =>
      rw [load_cons free]
      have size : allocTag id = tag := ok.sized tag id (by simp [free])
      constructor
      · exact ok.once
      · have enters := heldBy_put ok.once listed
          (List.perm_append_singleton id (ques s n))
        have leaves := heldBy_take allTags_nodup (mem_allTags tag) free
        calc
          List.Perm _ (heldBy allTags (Function.update s.msgFree tag rest) ++
              (id :: heldBy s.head (ques s))) := by
            simp only [held]
            rw [ques_set rfl]
            exact enters.append_left _
          List.Perm _ ((id :: heldBy allTags (Function.update s.msgFree tag rest)) ++
              heldBy s.head (ques s)) := List.perm_middle
          List.Perm _ (held s) := leaves.append_right _
          List.Perm _ (List.range poolSize) := ok.placed
      · intro other i member
        refine ok.sized other i ?_
        rcases mem_update_que member with ⟨rfl, left⟩ | old
        · rw [free]
          exact List.mem_cons_of_mem id left
        · exact old
      · intro m listed' i member
        dsimp only
        by_cases mine : i = id
        · rw [mine, Function.update_self, size]
          rfl
        · rw [Function.update_of_ne mine]
          refine ok.queued m listed' i ?_
          rw [ques_set rfl] at member
          rcases mem_update_que member with ⟨rfl, new⟩ | old
          · simpa [ques, mine] using new
          · exact old

theorem Placed.addStation (ok : Placed s) (lists : ListOk s) {rest : List Nat}
    (free : s.free = n :: rest) (mac : MacAddr) (id : Nat) :
    Placed (addStation s n rest mac id) := by
  have absent : n ∉ s.head := by
    intro listed
    refine lists.not_free listed ?_
    rw [free]
    exact List.mem_cons_self
  have nodes : (Ap.addStation s n rest mac id).nodes =
      Function.update s.nodes n (stationNode mac id) := rfl
  have after : ques (Ap.addStation s n rest mac id) = Function.update (ques s) n [] :=
    ques_set nodes
  constructor
  · simpa [Ap.addStation, List.nodup_append] using ⟨ok.once, fun m listed same =>
      absent (same ▸ listed)⟩
  · have none : heldBy (s.head ++ [n]) (Function.update (ques s) n []) =
        heldBy s.head (ques s) := by
      simpa [heldBy] using heldBy_update_absent absent
    simp only [held, after]
    exact none.symm ▸ ok.placed
  · exact ok.sized
  · intro m listed i member
    rw [after] at member
    by_cases same : m = n
    · subst same
      simp at member
    · rw [Function.update_of_ne same] at member
      refine ok.queued m ?_ i member
      simpa [Ap.addStation, same] using listed

/-- What is lost with a WDN that is removed. -/
theorem held_remove (lists : ListOk s) (listed : n ∈ s.head) :
    ((s.nodes n).que ++ held (removePhase s n)).Perm (held s) := by
  have after : ques (removePhase s n) = ques s := by
    rw [lists.removePhase_eq listed]
    exact ques_same rfl rfl
  have split := heldBy_split (ques s) listed
  rw [lists.removePhase_eq listed] at after ⊢
  simp only [held, after]
  calc
    List.Perm _ ((ques s n ++ heldBy (s.head.erase n) (ques s)) ++
        heldBy allTags s.msgFree) := by
      rw [List.append_assoc]
      exact List.perm_append_comm.append_left _
    List.Perm _ (heldBy s.head (ques s) ++ heldBy allTags s.msgFree) :=
      split.symm.append_right _
    List.Perm _ _ := List.perm_append_comm

/-- What is lost with a frame that is loaded on a WDN that is gone. -/
theorem held_load_absent (absent : n ∉ s.head) {tag : ApMsgTag} {id : Nat} {rest : List Nat}
    (stock : s.msgFree tag = id :: rest) (frame : List UInt8) (stale : Mem) :
    (id :: held (wfApMsgLoad s n tag frame stale)).Perm (held s) := by
  have gone : heldBy s.head (ques (wfApMsgLoad s n tag frame stale)) =
      heldBy s.head (ques s) := by
    rw [load_cons stock, ques_set rfl]
    exact heldBy_update_absent absent
  have head := (wfApMsgLoad_keeps (n := n) (s := s) tag frame stale).head
  simp only [held, head, gone]
  rw [load_cons stock]
  exact (heldBy_take allTags_nodup (mem_allTags tag) stock).append_right _

theorem Placed.remove (ok : Placed s) (lists : ListOk s) (listed : n ∈ s.head)
    (empty : (s.nodes n).que = []) : Placed (removePhase s n) := by
  have all := held_remove lists listed
  rw [empty] at all
  have sub : ∀ m, m ∈ s.head.erase n → m ∈ s.head := fun m => List.mem_of_mem_erase
  have after : ques (removePhase s n) = ques s := by
    rw [lists.removePhase_eq listed]
    exact ques_same rfl rfl
  have placed := all.trans ok.placed
  rw [lists.removePhase_eq listed] at after placed ⊢
  constructor
  · exact ok.once.erase n
  · exact placed
  · exact ok.sized
  · intro m listed' i member
    rw [after] at member
    exact ok.queued m (sub m listed') i member

end Moves

/-! ## The thread -/

section Thread

variable {cfg : ApConfig} {s s' : ApSystem} {n : Nat} {a : ApAnswers}

theorem Placed.authPhase (ok : Placed s) (listed : n ∈ s.head) (pc : AuthPc) :
    Placed (authPhase cfg s n pc a) := by
  refine (ok.freeIf listed _).same rfl (ques_same rfl rfl) rfl ?_
  intro id
  simp only [Ap.authPhase]
  generalize (wfAuthApThrd _ _ _ _ _).mgmt = mgmt
  cases (s.nodes n).que with
  | nil => rfl
  | cons head rest =>
      cases mgmt with
      | none => rfl
      | some mgmt =>
          by_cases same : id = head
          · simp [same]
          · simp [same]

theorem Placed.assocPhase (ok : Placed s) (listed : n ∈ s.head) :
    Placed (assocPhase cfg s n a) :=
  (ok.freeIf listed _).same rfl (ques_same rfl rfl) rfl fun _ => rfl

theorem Placed.maintainPhase (ok : Placed s) (listed : n ∈ s.head) (pc : MaintainPc) :
    Placed (maintainPhase cfg s n pc a) :=
  (ok.freeIf listed _).same rfl (ques_same rfl rfl) rfl fun _ => rfl

theorem Placed.clearupPhase (ok : Placed s) (listed : n ∈ s.head) :
    Placed (clearupPhase s n) :=
  (ok.clearup listed).same rfl (ques_same rfl rfl) rfl fun _ => rfl

/-- The report of an association is the only read of a message that has been freed. -/
theorem assoc_reads_iff (aid : (s.nodes n).aid ≤ 2007) :
    (assocPhase cfg s n a).readFreed = true ↔
      s.readFreed = true ∨ AssocPasses cfg s n a.assoc := by
  simp only [assocPhase, freeIf_readFreed, Bool.or_eq_true, AssocPasses]
  refine or_congr Iff.rfl ?_
  cases head : headMsg s n with
  | none => simp [wfAssocApThrd]
  | some msg =>
      by_cases tag : msg.tag = .assocReqFrame
      · simp only [wfAssocApThrd, tag, ne_eq, not_true_eq_false, if_false, recvAssocReq,
          Option.some.injEq]
        split
        · simp_all
        · simp_all
        · simp_all
      · simp [wfAssocApThrd, tag]

theorem thrd_reads_iff (ok : NodesOk s) :
    (apThrd cfg s n a).readFreed = true ↔
      s.readFreed = true ∨ ((s.nodes n).pc = .assoc ∧ AssocPasses cfg s n a.assoc) := by
  cases here : (s.nodes n).pc with
  | auth pc => simp [apThrd, here, authPhase]
  | assoc => simp [apThrd, here, assoc_reads_iff (ok n).aid]
  | maintain pc => simp [apThrd, here, maintainPhase]
  | clearup =>
      obtain ⟨msgFree, eq⟩ := apMsgQueClearup_eq s n
      simp [apThrd, here, clearupPhase, eq, ApSystem.setNode]
  | remove =>
      have same : (wfWdnRemove s (s.nodes n).mac).readFreed = s.readFreed := by
        unfold wfWdnRemove
        split <;> rfl
      simp [apThrd, here, removePhase, ApSystem.setNode, same]

theorem Placed.thrd (ok : Placed s) (lists : ListOk s) (listed : n ∈ s.head)
    (keeps : (s.nodes n).pc = .remove → (s.nodes n).que = []) :
    Placed (apThrd cfg s n a) := by
  have phase := apThrd_phase cfg s n a
  generalize apThrd cfg s n a = s' at phase
  cases phase with
  | auth here => exact ok.authPhase listed _
  | assoc here => exact ok.assocPhase listed
  | maintain here => exact ok.maintainPhase listed _
  | clearup here => exact ok.clearupPhase listed
  | remove here => exact ok.remove lists listed (keeps here)

end Thread

/-! ## Runs -/

/-- The states of a run in which all messages are where they belong. -/
structure MessagesKept (s : ApSystem) : Prop where
  lists : ListOk s
  nodes : NodesOk s
  placed : Placed s
  unread : s.readFreed = false

section Runs

variable {cfg : ApConfig} {s s' : ApSystem} {ctx : Ctx} {event : ApEvent}

theorem allocTag_depth (tag : ApMsgTag) :
    ((List.range poolSize).filter fun id => allocTag id = tag).length = tag.depth := by
  cases tag <;> decide

theorem MessagesKept.conserved (ok : MessagesKept s) : Conserved s where
  placed := ok.placed.placed
  depth tag := by
    rw [(ok.placed.placed.filter _).length_eq]
    exact allocTag_depth tag
  sized := ok.placed.sized
  unread := ok.unread

theorem not_conserved_of_lost {lost : List Nat} (some : lost ≠ [])
    (all : (lost ++ held s').Perm (held s)) (placed : (held s).Perm (List.range poolSize)) :
    ¬ Conserved s' := by
  intro good
  have before := (all.trans placed).length_eq
  have after := good.placed.length_eq
  rw [List.length_append] at before
  have positive := List.length_pos_iff.mpr some
  omega

theorem Placed.take (ok : Placed s) (ctx : Ctx) : Placed (takePending s ctx) :=
  ok.same rfl rfl rfl fun _ => rfl

theorem Placed.recvLoad (ok : Placed s) (lists : ListOk s) (listed : LoadsListed s ctx)
    (stale : Mem) :
    Placed (recvLoad s ctx stale) ∧ (recvLoad s ctx stale).readFreed = s.readFreed := by
  have loads := lists.loads ctx stale
  have untouched : ∀ (s : ApSystem) n tag frame,
      (wfApMsgLoad s n tag frame stale).readFreed = s.readFreed := by
    intro s n tag frame
    unfold wfApMsgLoad
    split <;> rfl
  generalize Ap.recvLoad s ctx stale = s' at loads
  cases loads with
  | idle none => exact ⟨ok, rfl⟩
  | dropped waits stray => exact ⟨ok.take ctx, rfl⟩
  | @known p n waits node short =>
      refine ⟨?_, untouched ..⟩
      cases stock : s.msgFree p.tag with
      | nil =>
          rw [load_nil (s := takePending s ctx) stock]
          exact ok.take ctx
      | cons id rest =>
          have member := listed p n waits node short (by simp [stock])
          exact (ok.take ctx).load member _ _ _
  | @station p n id rest waits isRx node short free fresh =>
      refine ⟨?_, untouched ..⟩
      have added := (ok.take ctx).addStation (lists.take ctx) free p.sa id
      refine added.load ?_ _ _ _
      simp [Ap.addStation]

theorem recvLoad_lost (stale : Mem) (ok : MessagesKept s) (gone : ¬ LoadsListed s ctx) :
    ¬ Conserved (recvLoad s ctx stale) := by
  simp only [LoadsListed, not_forall] at gone
  obtain ⟨p, n, waits, node, short, some, absent⟩ := gone
  obtain ⟨id, rest, stock⟩ := List.exists_cons_of_ne_nil some
  have loads : recvLoad s ctx stale =
      wfApMsgLoad (takePending s ctx) n p.tag p.frame stale := by
    simp only [recvLoad, waits, apRecv, node, if_neg (not_lt.mpr short)]
  rw [loads]
  have lost := held_load_absent (s := takePending s ctx) absent stock p.frame stale
  have cons : [id] ≠ [] := by simp
  exact not_conserved_of_lost cons lost (ok.placed.take ctx).placed

theorem MessagesKept.placed_step (ok : MessagesKept s) (allowed : KeepsMessages cfg s event)
    (moved : apStep cfg s event = some s') : Placed s' ∧ s'.readFreed = false := by
  cases event with
  | find tag sa frame =>
      cases moved
      unfold recvFind
      split
      · exact ⟨ok.placed, ok.unread⟩
      · exact ⟨ok.placed.same rfl rfl rfl fun _ => rfl, ok.unread⟩
  | load ctx stale =>
      cases moved
      obtain ⟨placed, unread⟩ := ok.placed.recvLoad ok.lists allowed stale
      exact ⟨placed, unread.trans ok.unread⟩
  | packet n =>
      cases moved
      exact ⟨ok.placed.same rfl (ques_same rfl rfl) rfl fun _ => rfl, ok.unread⟩
  | thrd n a =>
      cases moved
      split_ifs with listed
      · obtain ⟨empty, fails⟩ := allowed listed
        refine ⟨ok.placed.thrd ok.lists listed empty, ?_⟩
        rw [← Bool.not_eq_true, thrd_reads_iff ok.nodes]
        rintro (was | ⟨here, passes⟩)
        · rw [ok.unread] at was
          cases was
        · exact fails here passes
      · exact ⟨ok.placed, ok.unread⟩

theorem MessagesKept.step (ok : MessagesKept s) (allowed : KeepsMessages cfg s event) :
    ∃ next, apStep cfg s event = some next ∧ MessagesKept next := by
  obtain ⟨next, moved⟩ := apStep_total cfg s event
  obtain ⟨placed, unread⟩ := ok.placed_step allowed moved
  exact ⟨next, moved, ok.lists.step event moved, ok.nodes.step ok.lists event moved, placed,
    unread⟩

theorem MessagesKept.sharp (ok : MessagesKept s) (refused : ¬ KeepsMessages cfg s event)
    (moved : apStep cfg s event = some s') : ¬ Conserved s' := by
  cases event with
  | find tag sa frame => exact absurd trivial refused
  | load ctx stale =>
      cases moved
      exact recvLoad_lost stale ok refused
  | packet n => exact absurd trivial refused
  | thrd n a =>
      cases moved
      simp only [KeepsMessages, ThrdKeeps, not_forall, not_and_or] at refused
      obtain ⟨listed, ⟨here, some⟩ | ⟨here, passes⟩⟩ := refused
      · rw [if_pos listed]
        simp only [apThrd, here]
        exact not_conserved_of_lost some (held_remove ok.lists listed) ok.placed.placed
      · rw [if_pos listed]
        intro good
        have reads : (apThrd cfg s n a).readFreed = true :=
          (thrd_reads_iff ok.nodes).mpr (.inr ⟨here, not_not.mp passes⟩)
        rw [good.unread] at reads
        cases reads

theorem messagesKept_start : MessagesKept apStart where
  lists := listOk_start
  nodes := nodesOk_start
  placed := {
    once := by decide
    placed := by decide +kernel
    sized := by
      intro tag
      cases tag <;> decide
    queued := by
      intro n listed id member
      cases member }
  unread := rfl

end Runs

/-- All messages stay where they belong exactly in the runs in which no frame is loaded on a
WDN that is gone, no WDN is removed with a message, and no association is accepted. -/
theorem messages_conserved_iff (cfg : ApConfig) (events : List ApEvent) :
    Throughout (apStep cfg) Conserved apStart events ↔
      EachStep (apStep cfg) (KeepsMessages cfg) apStart events :=
  throughout_iff_of_clean MessagesKept (fun _ ok => ok.conserved)
    (fun _ _ ok allowed => ok.step allowed)
    (fun _ _ _ ok refused moved => ok.sharp refused moved) messagesKept_start

/-- A station that joins. -/
theorem messages_not_conserved :
    ¬ ∀ cfg events, Throughout (apStep cfg) Conserved apStart events := by
  intro always
  obtain ⟨final, ran, good⟩ :=
    (always openCfg (asksToJoin ++ [.thrd 1 apCall])).final
  have reads : (run (apStep openCfg) apStart (asksToJoin ++ [.thrd 1 apCall])).map
      ApSystem.readFreed = some true := by decide +kernel
  rw [ran, Option.map_some, good.unread] at reads
  cases reads

end Smartchip.Ap
