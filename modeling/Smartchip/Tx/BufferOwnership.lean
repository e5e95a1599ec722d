import Mathlib.Data.List.Nodup
import Smartchip.Tx.Buffers

/-!
# Ownership of the transmit buffers

Every step is given by what it does to the buffers on the queues, with the senders and
with the nodes of the bus.
-/

namespace Smartchip.Tx

open Smartchip.Foundation Smartchip.Utility

/-! ## The invariant -/

/-- The last node of a buffer is the one with the callback, and the callback is the one
of its pool. -/
structure Clean (s : TxBuffers) (lists : BufQue → List XmitBuf) : Prop where
  stocked : Stocked s.bufs lists
  once : (freeBufs lists ++ owed s).Perm (freeBufs bufPool)
  unreferred : ∀ qnode ∈ nodes s, qnode.param ∉ freeBufs lists
  ordered : (nodes s).Pairwise fun first second =>
    first.txCallbackFunc.isSome → first.param ≠ second.param
  fits : ∀ qnode ∈ nodes s, ∀ callback, qnode.txCallbackFunc = some callback →
    qnode.param.pool = callback.pool
  sendingPool : ∀ buf more, s.sending = some (buf, more) → buf.pool = .xmitBufQueue
  mgmtPool : ∀ buf ∈ s.mgmt, buf.pool = .xmitExtbufQueue
  mgmtApart : ∀ qnode ∈ nodes s, qnode.param ∉ s.mgmt

section Invariant

variable {s next : TxBuffers} {lists : BufQue → List XmitBuf} {pque : BufQue}
  {buf : XmitBuf} {rest : List XmitBuf}

theorem nodup_bufPool : (freeBufs bufPool).Nodup := by
  decide

theorem Clean.nodup (clean : Clean s lists) : (freeBufs lists ++ owed s).Nodup :=
  clean.once.nodup_iff.mpr nodup_bufPool

theorem Clean.notFree (clean : Clean s lists) (owes : buf ∈ owed s) : buf ∉ freeBufs lists :=
  fun member => (List.nodup_append'.mp clean.nodup).2.2 member owes

theorem length_lists_le (once : (freeBufs lists ++ owed s).Perm (freeBufs bufPool))
    (pque : BufQue) : (lists pque).length ≤ 16 := by
  have total := once.length_eq
  have pools : (freeBufs bufPool).length = 16 := by decide
  rw [pools, List.length_append, freeBufs, List.length_append] at total
  cases pque with
  | xmitBufQueue => omega
  | xmitExtbufQueue => omega

theorem Clean.owned (clean : Clean s lists) : Owned s := by
  refine ⟨lists, clean.stocked.toHolds, ?_, clean.stocked.own, clean.once, clean.unreferred⟩
  intro pque
  have bound := length_lists_le clean.once pque
  rw [clean.stocked.cnt pque, UInt32.toNat_ofNat', Nat.mod_eq_of_lt (by omega)]

theorem once_take {all before after : List XmitBuf} (once : (freeBufs lists ++ before).Perm all)
    (first : lists pque = buf :: rest) (moved : after.Perm (buf :: before)) :
    (freeBufs (Function.update lists pque rest) ++ after).Perm all := by
  have apart := moved.append_left (freeBufs (Function.update lists pque rest))
  exact apart.trans (List.perm_middle.trans
    (((freeBufs_take first).append_right before).trans once))

theorem once_return {all before after : List XmitBuf}
    (once : (freeBufs lists ++ before).Perm all) (moved : before.Perm (buf :: after)) :
    (freeBufs (Function.update lists pque (lists pque ++ [buf])) ++ after).Perm all := by
  have back := (freeBufs_return lists pque buf).append_right after
  exact back.trans (List.perm_middle.symm.trans ((moved.symm.append_left _).trans once))

@[simp] theorem owner_none (buf : XmitBuf) : owner ⟨buf, none⟩ = none := rfl

@[simp] theorem owner_some (buf : XmitBuf) (callback : TxCallback) :
    owner ⟨buf, some callback⟩ = some buf := rfl

theorem owner_mem {qnode : HifNode} (member : qnode ∈ nodes s)
    (callback : qnode.txCallbackFunc.isSome) :
    qnode.param ∈ (nodes s).filterMap owner := by
  rw [Option.isSome_iff_exists] at callback
  obtain ⟨function, callback⟩ := callback
  exact List.mem_filterMap.mpr ⟨qnode, member, by simp [owner, callback]⟩

/-- Only the order on the queues changes. -/
theorem Clean.restock (clean : Clean s lists) {bufs : Queues BufQue XmitBuf}
    {lists' : BufQue → List XmitBuf} (stocked : Stocked bufs lists')
    (same : (freeBufs lists').Perm (freeBufs lists)) : Clean { s with bufs } lists' where
  stocked := stocked
  once := (same.append_right (owed s)).trans clean.once
  unreferred := fun qnode member inside => clean.unreferred qnode member (same.subset inside)
  ordered := clean.ordered
  fits := clean.fits
  sendingPool := clean.sendingPool
  mgmtPool := clean.mgmtPool
  mgmtApart := clean.mgmtApart

theorem Clean.takeBack (clean : Clean s lists) (first : lists pque = buf :: rest)
    {bufs : Queues BufQue XmitBuf} (stocked : Stocked bufs (Function.update lists pque rest)) :
    ∃ lists', Clean (xmitBufDelete pque { s with bufs } buf) lists' := by
  have pool : buf.pool = pque := clean.stocked.own pque buf (first ▸ List.mem_cons_self)
  have taken := freeBufs_take first
  have nodup := taken.nodup_iff.mpr (List.nodup_append'.mp clean.nodup).1
  have back := xmitBufDelete_stocked (s := { s with bufs }) stocked pool
    (List.nodup_cons.mp nodup).1
  exact ⟨_, clean.restock back ((freeBufs_return _ pque buf).trans taken)⟩

/-- A buffer is taken by the worker or for a management frame. -/
theorem Clean.taken (clean : Clean s lists) (first : lists pque = buf :: rest)
    (stocked : Stocked next.bufs (Function.update lists pque rest))
    (moved : (owed next).Perm (buf :: owed s)) (same : nodes next = nodes s)
    (sendingPool : ∀ buf more, next.sending = some (buf, more) → buf.pool = .xmitBufQueue)
    (mgmt : ∀ buf' ∈ next.mgmt, buf' ∈ s.mgmt ∨ buf' = buf ∧ pque = .xmitExtbufQueue) :
    Clean next (Function.update lists pque rest) where
  stocked := stocked
  once := once_take clean.once first moved
  unreferred := by
    intro qnode member inside
    rw [same] at member
    exact clean.unreferred qnode member
      ((freeBufs_take first).subset (List.mem_cons_of_mem buf inside))
  ordered := by
    rw [same]
    exact clean.ordered
  fits := by
    rw [same]
    exact clean.fits
  sendingPool := sendingPool
  mgmtPool := by
    intro buf' member
    cases mgmt buf' member with
    | inl before => exact clean.mgmtPool buf' before
    | inr new =>
        rw [new.1, ← new.2]
        exact clean.stocked.own pque buf (first ▸ List.mem_cons_self)
  mgmtApart := by
    intro qnode member inside
    rw [same] at member
    cases mgmt _ inside with
    | inl before => exact clean.mgmtApart qnode member before
    | inr new =>
        apply clean.unreferred qnode member
        rw [new.1]
        exact mem_freeBufs.mpr ⟨pque, first ▸ List.mem_cons_self⟩

/-- A node is put behind the others for a buffer that its sender has. -/
theorem Clean.inserted (clean : Clean s lists) (qnode : HifNode)
    (holder : qnode.param ∈ (s.sending.map Prod.fst).toList ++ s.mgmt)
    (bufs : next.bufs = s.bufs) (more : nodes next = nodes s ++ [qnode])
    (moved : (owed next).Perm (owed s))
    (fits : ∀ callback, qnode.txCallbackFunc = some callback →
      qnode.param.pool = callback.pool)
    (sendingPool : ∀ buf more, next.sending = some (buf, more) → buf.pool = .xmitBufQueue)
    (mgmt : next.mgmt ⊆ s.mgmt) (left : qnode.param ∉ next.mgmt) : Clean next lists := by
  have parts := List.nodup_append'.mp (List.nodup_append'.mp clean.nodup).2.1
  have member : ∀ other ∈ nodes next, other ∈ nodes s ∨ other = qnode := by
    intro other inside
    rw [more, List.mem_append, List.mem_singleton] at inside
    exact inside
  constructor
  · rw [bufs]
    exact clean.stocked
  · exact (moved.append_left _).trans clean.once
  · intro other inside
    cases member other inside with
    | inl before => exact clean.unreferred other before
    | inr new =>
        rw [new]
        exact clean.notFree (List.mem_append_left _ holder)
  · rw [more]
    apply List.pairwise_append.mpr
    refine ⟨clean.ordered, List.pairwise_singleton _ _, ?_⟩
    intro other before last hlast callback same
    rw [List.mem_singleton] at hlast
    subst hlast
    exact parts.2.2 (same ▸ holder) (owner_mem before callback)
  · intro other inside
    cases member other inside with
    | inl before => exact clean.fits other before
    | inr new =>
        rw [new]
        exact fits
  · exact sendingPool
  · intro buf inside
    exact clean.mgmtPool buf (mgmt inside)
  · intro other inside waiting
    cases member other inside with
    | inl before => exact clean.mgmtApart other before (mgmt waiting)
    | inr new => exact left (new ▸ waiting)

/-- Nodes without a callback go. -/
theorem Clean.removed (clean : Clean s lists) (bufs : next.bufs = s.bufs)
    (sending : next.sending = s.sending) (mgmt : next.mgmt = s.mgmt)
    (fewer : (nodes next).Sublist (nodes s)) (moved : owed next = owed s) :
    Clean next lists := by
  constructor
  · rw [bufs]
    exact clean.stocked
  · rw [moved]
    exact clean.once
  · intro qnode member
    exact clean.unreferred qnode (fewer.subset member)
  · exact clean.ordered.sublist fewer
  · intro qnode member
    exact clean.fits qnode (fewer.subset member)
  · rw [sending]
    exact clean.sendingPool
  · rw [mgmt]
    exact clean.mgmtPool
  · intro qnode member
    rw [mgmt]
    exact clean.mgmtApart qnode (fewer.subset member)

/-- A buffer goes back to its queue, and no node refers to it. -/
theorem Clean.returned (clean : Clean s lists) (pool : buf.pool = pque)
    (bufs : next.bufs = (xmitBufDelete pque s buf).bufs)
    (moved : (owed s).Perm (buf :: owed next))
    (sending : next.sending = s.sending ∨ next.sending = none) (mgmt : next.mgmt = s.mgmt)
    (fewer : (nodes next).Sublist (nodes s)) (away : ∀ qnode ∈ nodes next, qnode.param ≠ buf) :
    Clean next (Function.update lists pque (lists pque ++ [buf])) := by
  have owes : buf ∈ owed s := moved.symm.subset List.mem_cons_self
  constructor
  · rw [bufs]
    exact xmitBufDelete_stocked clean.stocked pool (clean.notFree owes)
  · exact once_return clean.once moved
  · intro qnode member inside
    cases List.mem_cons.mp ((freeBufs_return lists pque buf).subset inside) with
    | inl same => exact away qnode member same
    | inr before => exact clean.unreferred qnode (fewer.subset member) before
  · exact clean.ordered.sublist fewer
  · intro qnode member
    exact clean.fits qnode (fewer.subset member)
  · intro buf' more
    cases sending with
    | inl same =>
        rw [same]
        exact clean.sendingPool buf' more
    | inr none =>
        rw [none]
        exact nofun
  · rw [mgmt]
    exact clean.mgmtPool
  · intro qnode member
    rw [mgmt]
    exact clean.mgmtApart qnode (fewer.subset member)

end Invariant

/-! ## Steps -/

section Losses

variable {s : TxBuffers} {lists : BufQue → List XmitBuf} {buf : XmitBuf}

/-- Nobody is to give a buffer back any more. -/
theorem not_owned_of_lost (holds : Holds s.bufs lists) {before : List XmitBuf}
    (once : (freeBufs lists ++ before).Perm (freeBufs bufPool))
    (lost : before.Perm (buf :: owed s)) : ¬ Owned s := by
  rintro ⟨lists', owned⟩
  obtain rfl := holds.unique owned.holds
  have all := once.length_eq.trans owned.once.length_eq.symm
  have one := lost.length_eq
  rw [List.length_append, List.length_append] at all
  rw [List.length_cons] at one
  omega

theorem not_owned_of_referred (holds : Holds s.bufs lists) {qnode : HifNode}
    (member : qnode ∈ nodes s) (inside : qnode.param ∈ freeBufs lists) : ¬ Owned s := by
  rintro ⟨lists', owned⟩
  obtain rfl := holds.unique owned.holds
  exact owned.unreferred qnode member inside

/-- A buffer that a node refers to goes back to its queue. -/
theorem not_owned_of_returned {pque : BufQue} (stocked : Stocked s.bufs lists)
    (pool : buf.pool = pque) (fresh : buf ∉ freeBufs lists) {qnode : HifNode}
    (member : qnode ∈ nodes s) (refers : qnode.param = buf) :
    ¬ Owned (xmitBufDelete pque s buf) := by
  apply not_owned_of_referred (xmitBufDelete_stocked stocked pool fresh).toHolds member
  rw [refers]
  exact (freeBufs_return lists pque buf).symm.subset List.mem_cons_self

end Losses

section Senders

variable {s : TxBuffers} {lists : BufQue → List XmitBuf} {buf : XmitBuf} {qnode : HifNode}

theorem takeXmitBuf_clean (clean : Clean s lists) (frame : TurnFrame) :
    ∃ lists', Clean (takeXmitBuf s frame) lists' := by
  unfold takeXmitBuf
  cases busy : s.sending with
  | some sending => exact ⟨lists, clean⟩
  | none =>
      cases queue : lists .xmitBufQueue with
      | nil =>
          have empty := xmitBufNew_nil clean.stocked queue
          unfold wfXmitBufNew
          rw [empty]
          exact ⟨lists, clean⟩
      | cons buf rest =>
          obtain ⟨bufs, new, stocked⟩ := xmitBufNew_cons clean.stocked queue
          unfold wfXmitBufNew
          rw [new]
          cases frame with
          | noFrame | errorMsdu | addBa | noPacket | noMpdu =>
              exact clean.takeBack queue stocked
          | mpdus more =>
              refine ⟨_, clean.taken queue stocked ?_ rfl ?_ ?_⟩
              · simp [owed, busy, nodes]
              · rintro buf' more' sending
                cases sending
                exact clean.stocked.own _ buf (queue ▸ List.mem_cons_self)
              · intro buf' member
                exact .inl member

theorem wfTxQueueInsert_full (full : s.txQueue.length = txQueueNodeNum) (qnode : HifNode) :
    wfTxQueueInsert s qnode = .fail := if_pos full

theorem wfTxQueueInsert_room (room : s.txQueue.length ≠ txQueueNodeNum) (qnode : HifNode) :
    wfTxQueueInsert s qnode = .waiting ∨ wfTxQueueInsert s qnode = .ok
      { s with txQueue := s.txQueue ++ [qnode], freeTxQueue := s.freeTxQueue - 1 } := by
  unfold wfTxQueueInsert
  rw [if_neg room]
  by_cases none : s.freeTxQueue = 0
  · exact .inl (if_pos none)
  · exact .inr (if_neg none)

theorem writeFragment_full {more : Nat} (sending : s.sending = some (buf, more))
    (full : s.txQueue.length = txQueueNodeNum) :
    writeFragment s = wfXmitBufDelete { s with sending := none } buf := by
  unfold writeFragment
  cases more with
  | zero =>
      rw [sending]
      dsimp only
      rw [wfTxQueueInsert_full full]
  | succ more =>
      rw [sending]
      dsimp only
      rw [wfTxQueueInsert_full full]

theorem owed_sending {more : Nat} (sending : s.sending = some (buf, more)) :
    owed s = buf :: owed { s with sending := none } := by
  simp [owed, sending, nodes]

theorem writeFragment_clean (clean : Clean s lists) (gives : GivesBack s .writeFragment) :
    ∃ lists', Clean (writeFragment s) lists' := by
  cases sending : s.sending with
  | none =>
      unfold writeFragment
      rw [sending]
      exact ⟨lists, clean⟩
  | some entry =>
      obtain ⟨buf, more⟩ := entry
      have pool := clean.sendingPool buf more sending
      by_cases full : s.txQueue.length = txQueueNodeNum
      · rw [writeFragment_full sending full]
        exact ⟨_, clean.returned pool rfl (List.Perm.of_eq (owed_sending sending)) (.inr rfl)
          rfl (List.Sublist.refl _) (gives full buf more sending)⟩
      · unfold writeFragment
        rw [sending]
        have holder : buf ∈ (s.sending.map Prod.fst).toList ++ s.mgmt := by
          rw [sending]
          exact List.mem_cons_self
        have left : buf ∉ s.mgmt := by
          intro waiting
          rw [clean.mgmtPool buf waiting] at pool
          cases pool
        cases more with
        | zero =>
            rcases wfTxQueueInsert_room full ⟨buf, some .mpduSendCompleteCb⟩ with
              waiting | inserted
            · dsimp only
              rw [waiting]
              exact ⟨lists, clean⟩
            · dsimp only
              rw [inserted]
              refine ⟨lists, clean.inserted ⟨buf, some .mpduSendCompleteCb⟩ holder rfl
                (List.append_assoc _ _ _).symm ?_ ?_ nofun (List.Subset.refl _) left⟩
              · simpa [owed, nodes, sending] using List.perm_append_singleton buf
                  (s.mgmt ++ (nodes s).filterMap owner)
              · rintro callback ⟨rfl⟩
                exact pool
        | succ more =>
            rcases wfTxQueueInsert_room full ⟨buf, none⟩ with waiting | inserted
            · dsimp only
              rw [waiting]
              exact ⟨lists, clean⟩
            · dsimp only
              rw [inserted]
              refine ⟨lists, clean.inserted ⟨buf, none⟩ holder rfl
                (List.append_assoc _ _ _).symm ?_ nofun ?_ (List.Subset.refl _) left⟩
              · simp [owed, nodes, sending, List.filterMap_cons]
              · rintro buf' more' ⟨rfl⟩
                exact pool

theorem writeFragment_not_owned (clean : Clean s lists)
    (keeps : ¬ GivesBack s .writeFragment) : ¬ Owned (writeFragment s) := by
  simp only [GivesBack, not_forall, not_not] at keeps
  obtain ⟨full, buf, more, sending, qnode, member, refers⟩ := keeps
  have owes : buf ∈ owed s := by
    rw [owed_sending sending]
    exact List.mem_cons_self
  rw [writeFragment_full sending full]
  exact not_owned_of_returned (s := { s with sending := none }) clean.stocked
    (clean.sendingPool buf more sending) (clean.notFree owes) member refers

theorem sendMgmtFrame_clean (clean : Clean s lists) {frame : MgmtFrame} (refused : Bool)
    (gives : GivesBack s (.sendMgmtFrame frame refused)) :
    ∃ lists', Clean (sendMgmtFrame s frame refused) lists' := by
  unfold sendMgmtFrame wfXmitExtbufNew
  cases queue : lists .xmitExtbufQueue with
  | nil =>
      rw [xmitBufNew_nil clean.stocked queue]
      exact ⟨lists, clean⟩
  | cons buf rest =>
      obtain ⟨bufs, new, stocked⟩ := xmitBufNew_cons clean.stocked queue
      rw [new]
      dsimp only
      cases use : bufferUse frame with
      | delete => exact clean.takeBack queue stocked
      | forget =>
          have empty := gives use
          rw [clean.stocked.isEmpty, queue] at empty
          cases empty
      | xmit =>
          cases refused with
          | true => exact clean.takeBack queue stocked
          | false =>
              refine ⟨_, clean.taken queue stocked ?_ rfl clean.sendingPool ?_⟩
              · simp [owed, nodes, wfNicMgmtFrameXmit]
              · intro buf' member
                cases List.mem_cons.mp member with
                | inl new => exact .inr ⟨new, rfl⟩
                | inr before => exact .inl before

theorem sendMgmtFrame_not_owned (clean : Clean s lists) {frame : MgmtFrame} {refused : Bool}
    (keeps : ¬ GivesBack s (.sendMgmtFrame frame refused)) :
    ¬ Owned (sendMgmtFrame s frame refused) := by
  simp only [GivesBack, not_forall] at keeps
  obtain ⟨use, some⟩ := keeps
  rw [clean.stocked.isEmpty, decide_eq_true_iff] at some
  obtain ⟨buf, rest, queue⟩ := List.exists_cons_of_ne_nil some
  obtain ⟨bufs, new, stocked⟩ := xmitBufNew_cons clean.stocked queue
  unfold sendMgmtFrame wfXmitExtbufNew
  rw [new]
  dsimp only
  rw [use]
  exact not_owned_of_lost stocked.toHolds (once_take clean.once queue (List.Perm.refl _))
    (List.Perm.refl _)

theorem owed_mgmt (member : buf ∈ s.mgmt) :
    (owed s).Perm (buf :: owed { s with mgmt := s.mgmt.erase buf }) := by
  have taken := ((List.perm_cons_erase member).append_left
    (s.sending.map Prod.fst).toList).append_right ((nodes s).filterMap owner)
  exact taken.trans (List.perm_middle.append_right _)

theorem writeMgmtFrame_clean (clean : Clean s lists)
    (gives : GivesBack s (.writeMgmtFrame buf)) :
    ∃ lists', Clean (writeMgmtFrame s buf) lists' := by
  unfold writeMgmtFrame
  split
  · rename_i member
    rcases wfTxQueueInsert_room (gives member) ⟨buf, some .wfXmitExtbufDelete⟩ with
      waiting | inserted
    · rw [waiting]
      exact ⟨lists, clean⟩
    · rw [inserted]
      have waiting := (List.nodup_append'.mp (List.nodup_append'.mp
        (List.nodup_append'.mp clean.nodup).2.1).1).2.1
      refine ⟨lists, clean.inserted ⟨buf, some .wfXmitExtbufDelete⟩
        (List.mem_append_right _ member) rfl (List.append_assoc _ _ _).symm ?_ ?_
        clean.sendingPool List.erase_subset waiting.not_mem_erase⟩
      · have back := List.perm_append_singleton buf (owed { s with mgmt := s.mgmt.erase buf })
        refine List.Perm.trans ?_ (back.trans (owed_mgmt member).symm)
        simp [owed, nodes]
      · rintro callback ⟨rfl⟩
        exact clean.mgmtPool buf member
  · exact ⟨lists, clean⟩

theorem writeMgmtFrame_not_owned (clean : Clean s lists)
    (keeps : ¬ GivesBack s (.writeMgmtFrame buf)) : ¬ Owned (writeMgmtFrame s buf) := by
  simp only [GivesBack, not_forall, ne_eq, not_not] at keeps
  obtain ⟨member, full⟩ := keeps
  unfold writeMgmtFrame
  rw [if_pos member, wfTxQueueInsert_full full]
  exact not_owned_of_lost (s := { s with mgmt := s.mgmt.erase buf }) clean.stocked.toHolds
    clean.once (owed_mgmt member)

end Senders

section Bus

variable {s next : TxBuffers} {lists : BufQue → List XmitBuf} {buf : XmitBuf} {qnode : HifNode}
  {xs ys : List HifNode}

/-- What goes with a node: nothing, or the promise to give its buffer back. -/
theorem owed_node (split : nodes s = xs ++ qnode :: ys) (left : nodes next = xs ++ ys)
    (sending : next.sending = s.sending) (mgmt : next.mgmt = s.mgmt) :
    (owed s).Perm ((owner qnode).toList ++ owed next) := by
  unfold owed
  rw [split, left, sending, mgmt]
  cases owned : owner qnode with
  | none => simp [owned]
  | some buf =>
      rw [List.filterMap_append, List.filterMap_cons_some owned, List.filterMap_append,
        ← List.append_assoc]
      exact List.perm_middle.trans (by simp)

theorem Clean.nodeGone (clean : Clean s lists) (split : nodes s = xs ++ qnode :: ys)
    (plain : qnode.txCallbackFunc = none) (left : nodes next = xs ++ ys)
    (bufs : next.bufs = s.bufs) (sending : next.sending = s.sending)
    (mgmt : next.mgmt = s.mgmt) : Clean next lists := by
  apply clean.removed bufs sending mgmt
  · rw [split, left]
    exact (List.sublist_cons_self qnode ys).append_left xs
  · unfold owed
    rw [split, left, sending, mgmt]
    simp [owner, plain]

/-- The first node of a buffer goes and its callback runs. -/
theorem Clean.callback (clean : Clean s lists) (split : nodes s = xs ++ qnode :: ys)
    {callback : TxCallback} (function : qnode.txCallbackFunc = some callback)
    (first : ∀ other ∈ xs, other.param ≠ qnode.param) (left : nodes next = xs ++ ys)
    (bufs : next.bufs = s.bufs) (sending : next.sending = s.sending)
    (mgmt : next.mgmt = s.mgmt) :
    ∃ lists', Clean (txCallback next qnode.param callback) lists' := by
  have member : qnode ∈ nodes s := by
    rw [split]
    exact List.mem_append_right xs List.mem_cons_self
  have moved : (owed s).Perm (qnode.param :: owed next) := by
    simpa [owner, function] using owed_node split left sending mgmt
  have ordered := clean.ordered
  rw [split, List.pairwise_append] at ordered
  rw [txCallback_eq]
  refine ⟨_, clean.returned (clean.fits qnode member callback function) ?_ ?_ (.inl sending)
    mgmt ?_ ?_⟩
  · unfold xmitBufDelete
    rw [bufs]
  · exact moved
  · rw [split]
    exact left ▸ (List.sublist_cons_self qnode ys).append_left xs
  · intro other inside
    have inside : other ∈ nodes next := inside
    rw [left, List.mem_append] at inside
    cases inside with
    | inl before => exact first other before
    | inr behind =>
        have apart := (List.pairwise_cons.mp ordered.2.1).1 other behind
        exact (apart (by rw [function]; rfl)).symm

theorem lost_node (clean : Clean s lists) (split : nodes s = xs ++ qnode :: ys)
    (callback : qnode.txCallbackFunc ≠ none) (left : nodes next = xs ++ ys)
    (bufs : next.bufs = s.bufs) (sending : next.sending = s.sending)
    (mgmt : next.mgmt = s.mgmt) : ¬ Owned next := by
  have moved := owed_node split left sending mgmt
  obtain ⟨function, callback⟩ := Option.ne_none_iff_exists'.mp callback
  have holds : Holds next.bufs lists := by
    rw [bufs]
    exact clean.stocked.toHolds
  rw [owner, callback] at moved
  exact not_owned_of_lost holds clean.once moved

theorem nodes_head {rest : List HifNode} (queue : s.txQueue = qnode :: rest) :
    nodes s = s.pipe ++ qnode :: rest := by
  rw [nodes, queue]

theorem txQueueSubmit_clean (clean : Clean s lists) {submitted : Submitted}
    (gives : GivesBack s (.submit submitted)) :
    ∃ next, txQueueSubmit s submitted = some next ∧ ∃ lists', Clean next lists' := by
  unfold txQueueSubmit
  cases queue : s.txQueue with
  | nil => exact ⟨s, rfl, lists, clean⟩
  | cons qnode rest =>
      have split := nodes_head queue
      cases submitted with
      | ok =>
          refine ⟨_, rfl, lists, clean.removed rfl rfl rfl ?_ ?_⟩
          · simp [nodes, queue]
          · simp [owed, nodes, queue]
      | removed =>
          have plain := gives qnode (by rw [queue]; rfl)
          exact ⟨_, rfl, lists, clean.nodeGone split plain rfl rfl rfl rfl⟩
      | fail =>
          obtain ⟨callback, first⟩ := gives qnode (by rw [queue]; rfl)
          obtain ⟨function, callback⟩ := Option.isSome_iff_exists.mp callback
          dsimp only
          rw [callback]
          exact ⟨_, rfl, clean.callback split callback first rfl rfl rfl rfl⟩

theorem txQueueSubmit_not_owned (clean : Clean s lists) {submitted : Submitted}
    (keeps : ¬ GivesBack s (.submit submitted)) (h : txQueueSubmit s submitted = some next) :
    ¬ Owned next := by
  unfold txQueueSubmit at h
  cases queue : s.txQueue with
  | nil =>
      exfalso
      cases submitted with
      | ok => exact keeps trivial
      | fail => exact keeps (by simp [GivesBack, queue])
      | removed => exact keeps (by simp [GivesBack, queue])
  | cons qnode rest =>
      have split := nodes_head queue
      rw [queue] at h
      cases submitted with
      | ok => exact absurd trivial keeps
      | removed =>
          cases h
          have callback : qnode.txCallbackFunc ≠ none := by
            simpa [GivesBack, queue] using keeps
          exact lost_node clean split callback rfl rfl rfl rfl
      | fail =>
          dsimp only at h
          rw [Option.map_eq_some_iff] at h
          obtain ⟨callback, function, rfl⟩ := h
          simp only [GivesBack, queue, List.head?_cons, Option.mem_def, Option.some.injEq,
            forall_eq', function, Option.isSome_some, true_and, not_forall, not_not] at keeps
          obtain ⟨other, member, refers⟩ := keeps
          have inside : qnode ∈ nodes s := by
            rw [split]
            exact List.mem_append_right _ List.mem_cons_self
          have owes : qnode.param ∈ owed s :=
            List.mem_append_right _ (owner_mem inside (by rw [function]; rfl))
          rw [txCallback_eq]
          exact not_owned_of_returned (s := { s with txQueue := rest }) clean.stocked
            (clean.fits qnode inside callback function) (clean.notFree owes)
            (List.mem_append_left rest member) refers

theorem erase_first {pipe : List HifNode} {p : HifNode → Bool}
    (found : pipe.find? p = some qnode) :
    ∃ xs ys, pipe = xs ++ qnode :: ys ∧ (∀ other ∈ xs, ¬ p other) ∧ p qnode ∧
      pipe.eraseP p = xs ++ ys := by
  obtain ⟨other, xs, ys, before, here, split, erased⟩ := List.exists_of_eraseP
    (List.mem_of_find?_eq_some found) (List.find?_some found)
  rw [split, List.find?_append, List.find?_eq_none.mpr before, Option.none_or,
    List.find?_cons_of_pos here, Option.some.injEq] at found
  subst found
  exact ⟨xs, ys, split, before, here, erased⟩

theorem writeComplete_clean (clean : Clean s lists) {ok : Bool}
    (gives : GivesBack s (.writeComplete buf ok)) :
    ∃ lists', Clean (writeComplete s buf ok) lists' := by
  unfold writeComplete
  cases found : s.pipe.find? (fun qnode => qnode.param = buf) with
  | none => exact ⟨lists, clean⟩
  | some qnode =>
      obtain ⟨xs, ys, pipe, before, here, erased⟩ := erase_first found
      have split : nodes s = xs ++ qnode :: (ys ++ s.txQueue) := by
        simp [nodes, pipe]
      dsimp only
      rw [erased]
      cases ok with
      | false =>
          have plain := gives qnode found
          exact ⟨lists, clean.nodeGone split plain (List.append_assoc _ _ _) rfl rfl rfl⟩
      | true =>
          cases function : qnode.txCallbackFunc with
          | none =>
              exact ⟨lists, clean.nodeGone split function (List.append_assoc _ _ _) rfl rfl rfl⟩
          | some callback =>
              obtain rfl : qnode.param = buf := of_decide_eq_true here
              have first : ∀ other ∈ xs, other.param ≠ qnode.param := by
                intro other member same
                exact before other member (decide_eq_true same)
              have left : nodes { s with pipe := xs ++ ys } = xs ++ (ys ++ s.txQueue) :=
                List.append_assoc _ _ _
              obtain ⟨lists', after⟩ := clean.callback split function first left rfl rfl rfl
              exact ⟨lists', after.removed rfl rfl rfl (List.Sublist.refl _) rfl⟩

theorem writeComplete_not_owned (clean : Clean s lists) {ok : Bool}
    (keeps : ¬ GivesBack s (.writeComplete buf ok)) : ¬ Owned (writeComplete s buf ok) := by
  cases ok with
  | true => exact absurd trivial keeps
  | false =>
      simp only [GivesBack, not_forall] at keeps
      obtain ⟨qnode, found, callback⟩ := keeps
      obtain ⟨xs, ys, pipe, before, here, erased⟩ := erase_first found
      have split : nodes s = xs ++ qnode :: (ys ++ s.txQueue) := by
        simp [nodes, pipe]
      unfold writeComplete
      rw [Option.mem_def.mp found]
      dsimp only
      rw [erased]
      exact lost_node clean split callback (List.append_assoc _ _ _) rfl rfl rfl

end Bus

/-! ## Runs -/

theorem bufferStep_clean {s : TxBuffers} {lists : BufQue → List XmitBuf} (clean : Clean s lists)
    {op : BufferOp} (gives : GivesBack s op) :
    ∃ next, bufferStep s op = some next ∧ ∃ lists', Clean next lists' := by
  cases op with
  | takeXmitBuf frame => exact ⟨_, rfl, takeXmitBuf_clean clean frame⟩
  | writeFragment => exact ⟨_, rfl, writeFragment_clean clean gives⟩
  | sendMgmtFrame frame refused => exact ⟨_, rfl, sendMgmtFrame_clean clean refused gives⟩
  | writeMgmtFrame pxmitbuf => exact ⟨_, rfl, writeMgmtFrame_clean clean gives⟩
  | submit submitted => exact txQueueSubmit_clean clean gives
  | writeComplete param ok => exact ⟨_, rfl, writeComplete_clean clean gives⟩

theorem bufferStep_not_owned {s next : TxBuffers} {lists : BufQue → List XmitBuf}
    (clean : Clean s lists) {op : BufferOp} (keeps : ¬ GivesBack s op)
    (h : bufferStep s op = some next) : ¬ Owned next := by
  cases op with
  | takeXmitBuf frame => exact absurd trivial keeps
  | writeFragment =>
      cases h
      exact writeFragment_not_owned clean keeps
  | sendMgmtFrame frame refused =>
      cases h
      exact sendMgmtFrame_not_owned clean keeps
  | writeMgmtFrame pxmitbuf =>
      cases h
      exact writeMgmtFrame_not_owned clean keeps
  | submit submitted => exact txQueueSubmit_not_owned clean keeps h
  | writeComplete param ok =>
      cases h
      exact writeComplete_not_owned clean keeps

theorem xmitBufsInit_stocked : Stocked xmitBufsInit.bufs bufPool := by
  have empty : Stocked (wfQueInit : Queues BufQue XmitBuf) fun _ => [] :=
    ⟨parked_wfQueInit, by simp⟩
  have filled := initBufs_stocked (freeBufs bufPool) empty nodup_bufPool
  have pools : (fun pque => [] ++ (freeBufs bufPool).filter fun buf => buf.pool = pque) =
      bufPool := by
    funext pque
    cases pque with
    | xmitBufQueue => decide
    | xmitExtbufQueue => decide
  rw [pools] at filled
  exact filled

theorem xmitBufsInit_clean : Clean xmitBufsInit bufPool where
  stocked := xmitBufsInit_stocked
  once := by
    simp [owed, nodes, xmitBufsInit]
  unreferred := nofun
  ordered := List.Pairwise.nil
  fits := nofun
  sendingPool := nofun
  mgmtPool := nofun
  mgmtApart := nofun

/-- Over any run from the initialised driver, every buffer is accounted for exactly as
long as every step gives back what it is to give back. -/
theorem buffers_owned_iff (ops : List BufferOp) :
    Throughout bufferStep Owned xmitBufsInit ops ↔
      EachStep bufferStep GivesBack xmitBufsInit ops := by
  apply throughout_iff_of_clean fun s => ∃ lists, Clean s lists
  · rintro s ⟨lists, clean⟩
    exact clean.owned
  · rintro s op ⟨lists, clean⟩ gives
    exact bufferStep_clean clean gives
  · rintro s op next ⟨lists, clean⟩ keeps h
    exact bufferStep_not_owned clean keeps h
  · exact ⟨bufPool, xmitBufsInit_clean⟩

/-- An association request without a station for the access point: its buffer is gone. -/
theorem association_buffer_lost :
    ¬ Throughout bufferStep Owned xmitBufsInit [.sendMgmtFrame (.associate false) false] := by
  intro throughout
  obtain ⟨-, next, h, owned⟩ := throughout
  have keeps : ¬ GivesBack xmitBufsInit (.sendMgmtFrame (.associate false) false) := by
    intro gives
    have empty := gives rfl
    rw [xmitBufsInit_stocked.isEmpty] at empty
    exact absurd empty (by decide)
  exact bufferStep_not_owned xmitBufsInit_clean keeps h owned

end Smartchip.Tx
