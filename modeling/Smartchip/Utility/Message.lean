import Mathlib.Data.List.DropRight
import Mathlib.Data.List.Count

/-!
# Message queues

`nic/utility/wf_msg.c`: a pool of messages that are free, pending or in the hands of
someone.  A message is taken from the free queue, pushed behind all pending ones that
are not less urgent, popped from the front and put back.
-/

namespace Smartchip.Utility

universe u

structure MsgQue (Msg : Type u) where
  pend : List Msg
  free : List Msg

section Operations

variable {Msg : Type u} [DecidableEq Msg]

/-- `_msg_pop`: the message leaves the queue that it is in. -/
def msgPop (que : MsgQue Msg) (msg : Msg) : MsgQue Msg :=
  ⟨que.pend.erase msg, que.free.erase msg⟩

/-- The first free message with the tag asked for. -/
def wfMsgNew (que : MsgQue Msg) (hasTag : Msg → Bool) : Option (Msg × MsgQue Msg) :=
  (que.free.find? hasTag).map fun msg => (msg, msgPop que msg)

/-- `urgency` is the tag with the bits of the identifier set. -/
def wfMsgPush (urgency : Msg → Nat) (que : MsgQue Msg) (msg : Msg) : MsgQue Msg :=
  let que := msgPop que msg
  let later := fun other => decide (urgency msg < urgency other)
  { que with pend := que.pend.rdropWhile later ++ msg :: que.pend.rtakeWhile later }

def wfMsgPop (que : MsgQue Msg) : Option (Msg × MsgQue Msg) :=
  que.pend.head?.map fun msg => (msg, msgPop que msg)

def wfMsgDel (que : MsgQue Msg) (msg : Msg) : MsgQue Msg :=
  let que := msgPop que msg
  { que with free := que.free ++ [msg] }

/-- How often a message is in the two queues. -/
def MsgQue.total (que : MsgQue Msg) (msg : Msg) : Nat :=
  que.pend.count msg + que.free.count msg

end Operations

section Totals

variable {Msg : Type u} [DecidableEq Msg] {que que' : MsgQue Msg} {msg : Msg}

theorem total_msgPop_other {other : Msg} (ne : other ≠ msg) :
    (msgPop que msg).total other = que.total other := by
  unfold MsgQue.total msgPop
  rw [List.count_erase_of_ne ne, List.count_erase_of_ne ne]

theorem total_msgPop_self (once : que.total msg = 1) : (msgPop que msg).total msg = 0 := by
  unfold MsgQue.total at once ⊢
  unfold msgPop
  rw [List.count_erase_self, List.count_erase_self]
  omega

/-- A message that is in no queue. -/
theorem msgPop_absent (absent : que.total msg = 0) : msgPop que msg = que := by
  unfold MsgQue.total at absent
  have pend : msg ∉ que.pend := List.count_eq_zero.mp (by omega)
  have free : msg ∉ que.free := List.count_eq_zero.mp (by omega)
  unfold msgPop
  rw [List.erase_of_not_mem pend, List.erase_of_not_mem free]

theorem total_wfMsgDel (absent : que.total msg = 0) (other : Msg) :
    (wfMsgDel que msg).total other = que.total other + if other = msg then 1 else 0 := by
  unfold wfMsgDel
  rw [msgPop_absent absent]
  unfold MsgQue.total
  by_cases same : other = msg
  · subst same
    simp [Nat.add_assoc]
  · simp [same, Ne.symm same]

theorem total_wfMsgPush {urgency : Msg → Nat} (absent : que.total msg = 0) (other : Msg) :
    (wfMsgPush urgency que msg).total other =
      que.total other + if other = msg then 1 else 0 := by
  unfold wfMsgPush
  rw [msgPop_absent absent]
  unfold MsgQue.total
  dsimp only
  set later := fun other => decide (urgency msg < urgency other)
  have whole : que.pend.count other =
      (que.pend.rdropWhile later).count other + (que.pend.rtakeWhile later).count other := by
    rw [← List.count_append, List.rdropWhile_append_rtakeWhile]
  rw [List.count_append, List.count_cons, whole]
  by_cases same : other = msg
  · subst same
    simp
    omega
  · simp [same, Ne.symm same]

theorem wfMsgPop_some {popped : Msg × MsgQue Msg} (pops : wfMsgPop que = some popped) :
    popped.1 ∈ que.pend ∧ popped.2 = msgPop que popped.1 := by
  unfold wfMsgPop at pops
  rw [Option.map_eq_some_iff] at pops
  obtain ⟨msg, first, rfl⟩ := pops
  exact ⟨List.mem_of_head? first, rfl⟩

theorem wfMsgNew_some {hasTag : Msg → Bool} {new : Msg × MsgQue Msg}
    (fresh : wfMsgNew que hasTag = some new) :
    new.1 ∈ que.free ∧ hasTag new.1 = true ∧ new.2 = msgPop que new.1 := by
  unfold wfMsgNew at fresh
  rw [Option.map_eq_some_iff] at fresh
  obtain ⟨msg, found, rfl⟩ := fresh
  exact ⟨List.mem_of_find?_eq_some found, List.find?_some found, rfl⟩

/-- A message that is pushed does not drive another one out. -/
theorem mem_wfMsgPush {urgency : Msg → Nat} {other : Msg} :
    other ∈ (wfMsgPush urgency que msg).pend ↔ other = msg ∨ other ∈ que.pend.erase msg := by
  unfold wfMsgPush msgPop
  dsimp only
  set later := fun other => decide (urgency msg < urgency other)
  have whole : other ∈ que.pend.erase msg ↔
      other ∈ (que.pend.erase msg).rdropWhile later ∨
        other ∈ (que.pend.erase msg).rtakeWhile later := by
    rw [← List.mem_append, List.rdropWhile_append_rtakeWhile]
  rw [List.mem_append, List.mem_cons, whole]
  exact or_left_comm

theorem total_pos_of_pend (member : msg ∈ que.pend) : 0 < que.total msg :=
  Nat.add_pos_left (List.count_pos_iff.mpr member) _

theorem total_pos_of_free (member : msg ∈ que.free) : 0 < que.total msg :=
  Nat.add_pos_right _ (List.count_pos_iff.mpr member)

end Totals

/-! ## A pool -/

section Pool

variable {Msg : Type u} [DecidableEq Msg] {que que' : MsgQue Msg} {msg : Msg}
  {held pool : List Msg}

/-- Every message of the pool is pending, free or held, and in one place only. -/
def Accounted (que : MsgQue Msg) (held pool : List Msg) : Prop :=
  (que.pend ++ que.free ++ held).Perm pool

theorem accounted_iff :
    Accounted que held pool ↔ ∀ msg, que.total msg + held.count msg = pool.count msg := by
  simp [Accounted, List.perm_iff_count, MsgQue.total, Nat.add_assoc]

theorem Accounted.at_most_once (all : Accounted que held pool) (once : pool.Nodup)
    (msg : Msg) : que.total msg + held.count msg ≤ 1 := by
  rw [accounted_iff.mp all msg]
  exact List.nodup_iff_count.mp once msg

theorem Accounted.msgPop (all : Accounted que held pool) (once : pool.Nodup)
    (inside : 0 < que.total msg) : Accounted (msgPop que msg) (msg :: held) pool := by
  rw [accounted_iff] at all ⊢
  intro other
  have bound := (accounted_iff.mpr all).at_most_once once msg
  by_cases same : other = msg
  · subst same
    rw [total_msgPop_self (by omega), List.count_cons_self, ← all other]
    omega
  · rw [total_msgPop_other same, List.count_cons_of_ne (Ne.symm same)]
    exact all other

theorem Accounted.absent (all : Accounted que (msg :: held) pool) (once : pool.Nodup) :
    que.total msg = 0 := by
  have bound := all.at_most_once once msg
  rw [List.count_cons_self] at bound
  omega

theorem Accounted.pop (all : Accounted que held pool) (once : pool.Nodup)
    (pops : wfMsgPop que = some (msg, que')) : Accounted que' (msg :: held) pool := by
  obtain ⟨inside, popped⟩ := wfMsgPop_some pops
  dsimp only at inside popped
  rw [popped]
  exact all.msgPop once (total_pos_of_pend inside)

theorem Accounted.new {hasTag : Msg → Bool} (all : Accounted que held pool)
    (once : pool.Nodup) (fresh : wfMsgNew que hasTag = some (msg, que')) :
    Accounted que' (msg :: held) pool := by
  obtain ⟨inside, -, popped⟩ := wfMsgNew_some fresh
  dsimp only at inside popped
  rw [popped]
  exact all.msgPop once (total_pos_of_free inside)

theorem Accounted.del (all : Accounted que (msg :: held) pool) (once : pool.Nodup) :
    Accounted (wfMsgDel que msg) held pool := by
  rw [accounted_iff]
  intro other
  rw [total_wfMsgDel (all.absent once), ← accounted_iff.mp all other, List.count_cons]
  by_cases same : other = msg
  · simp [same]
    omega
  · simp [same, Ne.symm same]

theorem Accounted.push {urgency : Msg → Nat} (all : Accounted que (msg :: held) pool)
    (once : pool.Nodup) : Accounted (wfMsgPush urgency que msg) held pool := by
  rw [accounted_iff]
  intro other
  rw [total_wfMsgPush (all.absent once), ← accounted_iff.mp all other, List.count_cons]
  by_cases same : other = msg
  · simp [same]
    omega
  · simp [same, Ne.symm same]

end Pool

end Smartchip.Utility
