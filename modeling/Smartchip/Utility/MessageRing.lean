import Mathlib.Algebra.Group.Nat.Defs
import Mathlib.Data.Fintype.Card
import Mathlib.Data.List.DropRight
import Mathlib.Data.List.FinRange
import Smartchip.Foundation.Run
import Smartchip.Utility.Queue

/-!
# Message queues on their pointers

`nic/utility/wf_msg.c`.  A message carries its own list pointers and names the queue that
it is in, and the functions may be given any message of the pool, wherever it is.  Where a
message is to be put is found before it is taken from where it is.
-/

namespace Smartchip.Utility.MessageRing

open Smartchip.Foundation Smartchip.Utility

inductive MsgHead where
  | pend
  | free
  deriving DecidableEq

/-- The messages that `wf_msg_alloc` has allocated, and their tags. -/
structure MsgPool where
  num : Nat
  bounded : num < 2 ^ 32
  tag : Fin num → UInt16

abbrev MsgPool.Msg (pool : MsgPool) : Type := Fin pool.num

structure MsgQue (pool : MsgPool) where
  que : Queues MsgHead pool.Msg
  pque : pool.Msg → Option MsgHead

variable {pool : MsgPool}

def tagUrgency (tag : UInt16) : UInt16 := tag ||| 0x7f

def tagDom (tag : UInt16) : UInt16 := (tag >>> 12) &&& 0xf

/-! ## The functions -/

def msgPop (s : MsgQue pool) (pmsg : pool.Msg) : Int × MsgQue pool :=
  match s.pque pmsg with
  | none => (0, s)
  | some h =>
      match wfDeque s.que (.node pmsg) h with
      | (none, _) => (-1, s)
      | (some _, que) => (0, ⟨que, Function.update s.pque pmsg none⟩)

def msgPush (s : MsgQue pool) (pque : MsgHead) (pos : Entry MsgHead pool.Msg)
    (pmsg : pool.Msg) : Int × MsgQue pool :=
  let s := (msgPop s pmsg).2
  (0, ⟨wfEnque s.que (.node pmsg) pos pque, Function.update s.pque pmsg (some pque)⟩)

/-- No walk that ends sees more entries than there are. -/
def walkLimit (pool : MsgPool) : Nat := pool.num + 2

def forEach (s : MsgQue pool) (h : MsgHead) (stop : pool.Msg → Bool) :
    Option (Entry MsgHead pool.Msg) :=
  seek s.que.links.next h stop (walkLimit pool) (s.que.links.next (.head h))

def forEachPrev (s : MsgQue pool) (h : MsgHead) (stop : pool.Msg → Bool) :
    Option (Entry MsgHead pool.Msg) :=
  seek s.que.links.prev h stop (walkLimit pool) (s.que.links.prev (.head h))

/-- The message that was found is given out, from its queue when `bpop` says so. -/
def msgGive (s : MsgQue pool) (bpop : Bool) (pmsg : pool.Msg) :
    (Int × Option pool.Msg) × MsgQue pool :=
  let popped := if bpop then msgPop s pmsg else (0, s)
  ((popped.1, if popped.1 = 0 then some pmsg else none), popped.2)

def wfMsgNew (s : MsgQue pool) (tag : UInt16) :
    Option ((Int × Option pool.Msg) × MsgQue pool) :=
  if wfQueIsEmpty s.que .free then some ((-2, none), s)
  else
    (forEach s .free fun pmsg => pool.tag pmsg = tag).map fun pos =>
      match pos with
      | .head _ => ((-3, none), s)
      | .node pmsg => msgGive s true pmsg

def wfMsgPush (s : MsgQue pool) (pmsg : pool.Msg) : Option (Int × MsgQue pool) :=
  (forEachPrev s .pend fun tmp =>
      tagUrgency (pool.tag tmp) ≤ tagUrgency (pool.tag pmsg)).map fun pos =>
    msgPush s .pend pos pmsg

def wfMsgPushHead (s : MsgQue pool) (pmsg : pool.Msg) : Option (Int × MsgQue pool) :=
  (forEach s .pend fun tmp => tagDom (pool.tag pmsg) ≤ tagDom (pool.tag tmp)).map fun pos =>
    msgPush s .pend (s.que.links.prev pos) pmsg

/-- A queue that is not empty and has its head next to the head is no list of messages. -/
def msgGet (s : MsgQue pool) (bpop btail : Bool) :
    Option ((Int × Option pool.Msg) × MsgQue pool) :=
  if wfQueIsEmpty s.que .pend then some ((-2, none), s)
  else
    match if btail then s.que.links.prev (.head .pend) else s.que.links.next (.head .pend) with
    | .head _ => none
    | .node pmsg => some (msgGive s bpop pmsg)

def msgGetDom (s : MsgQue pool) (dom : UInt16) (bpop btail : Bool) :
    Option ((Int × Option pool.Msg) × MsgQue pool) :=
  let here := fun tmp => decide (tagDom (pool.tag tmp) = dom)
  (if btail then forEachPrev s .pend here else forEach s .pend here).map fun pos =>
    match pos with
    | .head _ => ((-1, none), s)
    | .node pmsg => msgGive s bpop pmsg

def wfMsgDel (s : MsgQue pool) (pmsg : pool.Msg) : Int × MsgQue pool :=
  msgPush s .free (s.que.links.prev (.head .free)) pmsg

inductive MsgCall (pool : MsgPool) where
  | new (tag : UInt16)
  | push (pmsg : pool.Msg)
  | pushHead (pmsg : pool.Msg)
  | get (bpop btail : Bool)
  | getDom (dom : UInt16) (bpop btail : Bool)
  | del (pmsg : pool.Msg)

def msgStep (s : MsgQue pool) : MsgCall pool → Option (MsgQue pool)
  | .new tag => (wfMsgNew s tag).map Prod.snd
  | .push pmsg => (wfMsgPush s pmsg).map Prod.snd
  | .pushHead pmsg => (wfMsgPushHead s pmsg).map Prod.snd
  | .get bpop btail => (msgGet s bpop btail).map Prod.snd
  | .getDom dom bpop btail => (msgGetDom s dom bpop btail).map Prod.snd
  | .del pmsg => some (wfMsgDel s pmsg).2

/-- Behind `wf_msg_init` and the calls of `wf_msg_alloc`. -/
def msgStart (pool : MsgPool) : MsgQue pool :=
  (List.finRange pool.num).foldl (fun s pmsg => (wfMsgDel s pmsg).2)
    ⟨wfQueInit, fun _ => none⟩

/-! ## What the queues are to be -/

/-- Both queues are circular lists of as many messages as they count, and a message names
the queue that it is in. -/
def WellFormed (s : MsgQue pool) : Prop :=
  ∃ lists : MsgHead → List pool.Msg,
    Lists s.que.links lists ∧ (∀ h, (s.que.cnt h).toNat = (lists h).length) ∧
      ∀ pmsg h, s.pque pmsg = some h ↔ pmsg ∈ lists h

/-- The messages of a queue, by their pointers. -/
def msgsOf (s : MsgQue pool) (h : MsgHead) : List pool.Msg :=
  collect s.que.links.next (walkLimit pool) (s.que.links.next (.head h))

/-- A pending message is pushed again with only less urgent ones behind it, or the last free
message is freed again. -/
def BehindItself (s : MsgQue pool) : MsgCall pool → Prop
  | .push pmsg => pmsg ∈ msgsOf s .pend ∧
      ∀ later ∈ (msgsOf s .pend).rtakeWhile fun tmp => tmp ≠ pmsg,
        tagUrgency (pool.tag pmsg) < tagUrgency (pool.tag later)
  | .del pmsg => (msgsOf s .free).getLast? = some pmsg
  | .new _ | .pushHead _ | .get _ _ | .getDom _ _ _ => False

/-! ## The lists of a state -/

structure Represents (s : MsgQue pool) (lists : MsgHead → List pool.Msg) : Prop where
  holds : Holds s.que lists
  named : ∀ pmsg h, s.pque pmsg = some h ↔ pmsg ∈ lists h

section Lists

variable {s : MsgQue pool} {lists : MsgHead → List pool.Msg} {h : MsgHead}
  {pmsg : pool.Msg} {stop : pool.Msg → Bool}

theorem length_le_num {links : Links MsgHead pool.Msg} (all : Lists links lists)
    (h : MsgHead) : (lists h).length ≤ pool.num := by
  simpa using (all.ring h).nodup.length_le_card

theorem wellFormed_iff : WellFormed s ↔ ∃ lists, Represents s lists := by
  have small := pool.bounded
  constructor
  · rintro ⟨lists, all, cnt, named⟩
    refine ⟨lists, ⟨all, ?_⟩, named⟩
    intro h
    have bound := length_le_num all h
    apply UInt32.toNat.inj
    rw [cnt h, UInt32.toNat_ofNat_of_lt' (by simp [UInt32.size]; omega)]
  · rintro ⟨lists, ⟨all, cnt⟩, named⟩
    refine ⟨lists, all, ?_, named⟩
    intro h
    have bound := length_le_num all h
    rw [cnt h, UInt32.toNat_ofNat_of_lt' (by simp [UInt32.size]; omega)]

theorem Represents.length_lt (rep : Represents s lists) (h : MsgHead) :
    (lists h).length < walkLimit pool := by
  have bound := length_le_num rep.holds.threaded h
  unfold walkLimit
  omega

theorem Represents.ring (rep : Represents s lists) (h : MsgHead) :
    Threads s.que.links h (lists h) := rep.holds.threaded.ring h

theorem Represents.forEach (rep : Represents s lists) :
    forEach s h stop = some (found h ((lists h).find? stop)) := by
  have ring : Threads s.que.links h ([] ++ lists h) := rep.ring h
  unfold MessageRing.forEach
  rw [(rep.ring h).next_head]
  exact ring.seek_next (rep.length_lt h)

theorem Represents.forEachPrev (rep : Represents s lists) :
    forEachPrev s h stop = some (found h ((lists h).reverse.find? stop)) := by
  have ring := rep.ring h
  unfold MessageRing.forEachPrev
  rw [ring.prev_head]
  rw [← List.append_nil (lists h)] at ring
  exact ring.seek_prev (rep.length_lt h)

theorem Represents.msgsOf (rep : Represents s lists) (h : MsgHead) : msgsOf s h = lists h := by
  have ring : Threads s.que.links h ([] ++ lists h) := rep.ring h
  unfold MessageRing.msgsOf
  rw [(rep.ring h).next_head]
  exact ring.collect_next (rep.length_lt h)

theorem Represents.elsewhere (rep : Represents s lists) (listed : s.pque pmsg = some h)
    {k : MsgHead} (other : k ≠ h) : pmsg ∉ lists k := by
  intro member
  have also := (rep.named pmsg k).2 member
  rw [listed, Option.some.injEq] at also
  exact other also.symm

theorem Represents.unlisted (rep : Represents s lists) (off : s.pque pmsg = none)
    (h : MsgHead) : pmsg ∉ lists h := by
  intro member
  have listed := (rep.named pmsg h).2 member
  simp [off] at listed

end Lists

/-! ## Taking a message and putting it somewhere -/

section Moves

variable {s : MsgQue pool} {lists : MsgHead → List pool.Msg} {h : MsgHead}
  {pmsg : pool.Msg} {pos : Entry MsgHead pool.Msg}

theorem msgPop_listed (rep : Represents s lists) (listed : s.pque pmsg = some h) :
    msgPop s pmsg =
      (0, ⟨removed s.que (.node pmsg) h, Function.update s.pque pmsg none⟩) := by
  have member := (rep.named pmsg h).1 listed
  have full : wfQueIsEmpty s.que h = false := by
    rw [rep.holds.isEmpty]
    simp [List.ne_nil_of_mem member]
  simp [msgPop, listed, wfDeque, full]

theorem msgPop_unlisted (off : s.pque pmsg = none) : msgPop s pmsg = (0, s) := by
  simp [msgPop, off]

theorem Represents.pop (rep : Represents s lists) (pmsg : pool.Msg) :
    Represents (msgPop s pmsg).2 fun h => (lists h).erase pmsg := by
  cases listed : s.pque pmsg with
  | none =>
      have same : (fun h => (lists h).erase pmsg) = lists := by
        funext h
        exact List.erase_of_not_mem (rep.unlisted listed h)
      rw [msgPop_unlisted listed, same]
      exact rep
  | some h =>
      rw [msgPop_listed rep listed]
      obtain ⟨xs, ys, split⟩ := List.append_of_mem ((rep.named pmsg h).1 listed)
      have once := (rep.ring h).nodup
      rw [split] at once
      have absent : pmsg ∉ xs ++ ys := (List.nodup_cons.mp (List.nodup_middle.mp once)).1
      rw [List.mem_append, not_or] at absent
      have same : Function.update lists h (xs ++ ys) = fun k => (lists k).erase pmsg := by
        funext k
        by_cases here : k = h
        · subst here
          simp [split, List.erase_append_right _ absent.1]
        · simp [here, List.erase_of_not_mem (rep.elsewhere listed here)]
      refine ⟨same ▸ rep.holds.removed split, ?_⟩
      intro other k
      have distinct := (rep.ring k).nodup
      by_cases taken : other = pmsg
      · subst taken
        simp [distinct.mem_erase_iff]
      · simp [taken, distinct.mem_erase_iff, rep.named other k]

theorem msgGive_represents (rep : Represents s lists) (bpop : Bool) (pmsg : pool.Msg) :
    ∃ lists, Represents (msgGive s bpop pmsg).2 lists := by
  cases bpop with
  | true => exact ⟨_, rep.pop pmsg⟩
  | false => exact ⟨lists, rep⟩

/-- What the lists are when a message has been put behind a part of one of them. -/
def putBehind (lists : MsgHead → List pool.Msg) (pmsg : pool.Msg) (h : MsgHead)
    (xs ys : List pool.Msg) : MsgHead → List pool.Msg :=
  Function.update (fun k => (lists k).erase pmsg) h (xs ++ pmsg :: ys)

theorem msgPush_lists {xs ys : List pool.Msg} (rep : Represents s lists)
    (split : (lists h).erase pmsg = xs ++ ys) :
    Represents (msgPush s h (before h xs) pmsg).2 (putBehind lists pmsg h xs ys) := by
  have popped := rep.pop pmsg
  have fresh : ∀ k, pmsg ∉ (lists k).erase pmsg := fun k => (rep.ring k).nodup.not_mem_erase
  have ring := popped.ring h
  have linked := popped.holds.linkIn split fresh
  rw [split] at ring
  refine ⟨?_, ?_⟩
  · have same : (msgPush s h (before h xs) pmsg).2.que =
        ⟨(msgPop s pmsg).2.que.links.linkIn (.node pmsg) (before h xs) (after h ys),
          Function.update (msgPop s pmsg).2.que.cnt h ((msgPop s pmsg).2.que.cnt h + 1)⟩ := by
      simp [msgPush, wfEnque, wfListInsertNext, ring.joined.1, wfListInsert_eq]
    rw [same]
    exact linked
  · intro other k
    have names := popped.named other k
    unfold putBehind
    by_cases moved : other = pmsg
    · subst moved
      by_cases here : k = h
      · subst here
        simp [msgPush]
      · simp [msgPush, here, Ne.symm here, fresh k]
    · by_cases here : k = h
      · subst here
        have shape : other ∈ xs ++ pmsg :: ys ↔ other ∈ xs ++ ys := by simp [moved]
        simp only [msgPush, Function.update_of_ne moved, Function.update_self, shape, ← split]
        exact names
      · simp only [msgPush, Function.update_of_ne moved, Function.update_of_ne here]
        exact names

/-- An entry of a queue is still there when another message has been taken out. -/
theorem exists_place (inside : pos ∈ cycle h (lists h)) (apart : pos ≠ .node pmsg) :
    ∃ xs ys, (lists h).erase pmsg = xs ++ ys ∧ pos = before h xs := by
  have still : pos ∈ cycle h ((lists h).erase pmsg) := by
    rw [mem_cycle] at inside ⊢
    rcases inside with rfl | ⟨other, member, rfl⟩
    · exact .inl rfl
    · have ne : other ≠ pmsg := fun same => apart (same ▸ rfl)
      exact .inr ⟨other, (List.mem_erase_of_ne ne).2 member, rfl⟩
  exact exists_before still

/-- A message is put behind any entry of a queue but itself. -/
theorem msgPush_represents (rep : Represents s lists) (inside : pos ∈ cycle h (lists h))
    (apart : pos ≠ .node pmsg) : ∃ lists, Represents (msgPush s h pos pmsg).2 lists := by
  obtain ⟨xs, ys, split, rfl⟩ := exists_place inside apart
  exact ⟨_, msgPush_lists rep split⟩

/-- A message that is put behind itself is in no queue, and names one. -/
theorem msgPush_itself (rep : Represents s lists) (listed : s.pque pmsg = some h) :
    ¬ WellFormed (msgPush s h (.node pmsg) pmsg).2 := by
  rintro ⟨lists', all, -, named⟩
  have member : pmsg ∈ lists' h := (named pmsg h).1 (by simp [msgPush])
  apply (all.ring h).next_ne member
  have lone : (wfListDelete s.que.links (.node pmsg)).Joined (.node pmsg) (.node pmsg) :=
    joined_unlink_self
  simp [msgPush, msgPop_listed rep listed, wfEnque, wfListInsertNext, wfListInsert, removed,
    lone.1]

end Moves

/-! ## One call -/

/-- A search ends at an element that it stops at when it does not stop in front of it. -/
theorem find?_eq_self_iff {α : Type} [DecidableEq α] {stop : α → Bool} {a : α}
    (here : stop a = true) (xs : List α) :
    xs.find? stop = some a ↔
      a ∈ xs ∧ ∀ b ∈ xs.takeWhile fun b => b ≠ a, stop b = false := by
  induction xs with
  | nil => simp
  | cons x xs ih =>
      by_cases same : x = a
      · subst same
        simp [here]
      · cases stops : stop x with
        | true => simp [stops, same]
        | false => simp [stops, same, Ne.symm same, ih]

section Calls

variable {s next : MsgQue pool} {lists : MsgHead → List pool.Msg} {pmsg : pool.Msg}

theorem behindItself_push_iff (rep : Represents s lists) :
    BehindItself s (.push pmsg) ↔
      (lists .pend).reverse.find? (fun tmp =>
        tagUrgency (pool.tag tmp) ≤ tagUrgency (pool.tag pmsg)) = some pmsg := by
  rw [find?_eq_self_iff (by simp)]
  simp [BehindItself, rep.msgsOf, List.rtakeWhile]

theorem behindItself_del_iff (rep : Represents s lists) :
    BehindItself s (.del pmsg) ↔ s.que.links.prev (.head .free) = .node pmsg := by
  rw [(rep.ring .free).prev_head]
  simp only [BehindItself, rep.msgsOf]
  unfold before
  cases (lists .free).getLast? <;> simp

theorem found_mem_cycle {xs ys : List pool.Msg} {h : MsgHead} {stop : pool.Msg → Bool}
    (same : ∀ n, n ∈ ys → n ∈ xs) : found h (ys.find? stop) ∈ cycle h xs := by
  rw [mem_cycle]
  cases first : ys.find? stop with
  | none => exact .inl rfl
  | some n => exact .inr ⟨n, same n (List.mem_of_find?_eq_some first), rfl⟩

theorem wfMsgNew_kept (rep : Represents s lists) (tag : UInt16) :
    ∃ next, msgStep s (.new tag) = some next ∧ ∃ lists, Represents next lists := by
  simp only [msgStep, wfMsgNew, rep.forEach]
  split_ifs with empty
  · exact ⟨s, rfl, lists, rep⟩
  · cases (lists .free).find? fun pmsg => pool.tag pmsg = tag with
    | none => exact ⟨s, rfl, lists, rep⟩
    | some pmsg => exact ⟨_, rfl, msgGive_represents rep true pmsg⟩

theorem msgGet_kept (rep : Represents s lists) (bpop btail : Bool) :
    ∃ next, msgStep s (.get bpop btail) = some next ∧ ∃ lists, Represents next lists := by
  have ring := rep.ring .pend
  simp only [msgStep, msgGet, rep.holds.isEmpty, ring.next_head, ring.prev_head]
  cases pending : lists .pend with
  | nil => exact ⟨s, rfl, lists, rep⟩
  | cons first rest =>
      cases btail with
      | true =>
          have last := List.getLast?_eq_some_getLast (List.cons_ne_nil first rest)
          simp only [before, last]
          exact ⟨_, rfl, msgGive_represents rep bpop _⟩
      | false => exact ⟨_, rfl, msgGive_represents rep bpop first⟩

theorem msgGetDom_kept (rep : Represents s lists) (dom : UInt16) (bpop btail : Bool) :
    ∃ next, msgStep s (.getDom dom bpop btail) = some next ∧
      ∃ lists, Represents next lists := by
  have ends : ∃ first : Option pool.Msg,
      (if btail then forEachPrev s .pend fun tmp => decide (tagDom (pool.tag tmp) = dom)
        else forEach s .pend fun tmp => decide (tagDom (pool.tag tmp) = dom)) =
      some (found .pend first) := by
    cases btail with
    | true => exact ⟨_, rep.forEachPrev⟩
    | false => exact ⟨_, rep.forEach⟩
  obtain ⟨first, ends⟩ := ends
  simp only [msgStep, msgGetDom, ends]
  cases first with
  | none => exact ⟨s, rfl, lists, rep⟩
  | some pmsg => exact ⟨_, rfl, msgGive_represents rep bpop pmsg⟩

theorem wfMsgPush_kept (rep : Represents s lists) (clear : ¬ BehindItself s (.push pmsg)) :
    ∃ next, msgStep s (.push pmsg) = some next ∧ ∃ lists, Represents next lists := by
  rw [behindItself_push_iff rep] at clear
  simp only [msgStep, wfMsgPush, rep.forEachPrev]
  refine ⟨_, rfl, msgPush_represents rep (found_mem_cycle fun n => List.mem_reverse.1) ?_⟩
  intro same
  apply clear
  cases first : (lists .pend).reverse.find? fun tmp =>
      tagUrgency (pool.tag tmp) ≤ tagUrgency (pool.tag pmsg) with
  | none => simp [first, found] at same
  | some n => simpa [first, found] using same

/-- The place in front of the message that stops the walk is never the message itself: it
would have stopped the walk. -/
theorem wfMsgPushHead_kept (rep : Represents s lists) (pmsg : pool.Msg) :
    ∃ next, msgStep s (.pushHead pmsg) = some next ∧ ∃ lists, Represents next lists := by
  have ring := rep.ring .pend
  simp only [msgStep, wfMsgPushHead, rep.forEach]
  refine ⟨_, rfl, msgPush_represents rep (ring.closed _ (found_mem_cycle fun n => id)).2 ?_⟩
  cases first : (lists .pend).find? fun tmp =>
      tagDom (pool.tag pmsg) ≤ tagDom (pool.tag tmp) with
  | none =>
      have absent : pmsg ∉ lists .pend := by
        intro member
        have refused := List.find?_eq_none.mp first pmsg member
        simp at refused
      rw [found, ring.prev_head]
      intro same
      have inside := before_mem MsgHead.pend (lists .pend)
      simp [same, opening, absent] at inside
  | some n =>
      obtain ⟨-, front, back, split, passed⟩ := List.find?_eq_some_iff_append.mp first
      have absent : pmsg ∉ front := by
        intro member
        have refused := passed pmsg member
        simp at refused
      rw [split] at ring
      rw [found, ring.prev_node]
      intro same
      have inside := before_mem MsgHead.pend front
      simp [same, opening, absent] at inside

theorem wfMsgDel_kept (rep : Represents s lists) (clear : ¬ BehindItself s (.del pmsg)) :
    ∃ lists', Represents (wfMsgDel s pmsg).2 lists' ∧
      lists' .pend = (lists .pend).erase pmsg := by
  rw [behindItself_del_iff rep] at clear
  have inside := ((rep.ring .free).closed _ (mem_cycle.mpr (.inl rfl))).2
  obtain ⟨xs, ys, split, place⟩ := exists_place inside clear
  unfold wfMsgDel
  rw [place]
  exact ⟨_, msgPush_lists rep split, by simp [putBehind]⟩

theorem msgStep_kept (rep : Represents s lists) (call : MsgCall pool)
    (clear : ¬ BehindItself s call) :
    ∃ next, msgStep s call = some next ∧ ∃ lists, Represents next lists := by
  cases call with
  | new tag => exact wfMsgNew_kept rep tag
  | push pmsg => exact wfMsgPush_kept rep clear
  | pushHead pmsg => exact wfMsgPushHead_kept rep pmsg
  | get bpop btail => exact msgGet_kept rep bpop btail
  | getDom dom bpop btail => exact msgGetDom_kept rep dom bpop btail
  | del pmsg =>
      obtain ⟨lists', kept, -⟩ := wfMsgDel_kept rep clear
      exact ⟨_, rfl, lists', kept⟩

theorem msgStep_behindItself (rep : Represents s lists) {call : MsgCall pool}
    (behind : BehindItself s call) (steps : msgStep s call = some next) :
    ¬ WellFormed next := by
  cases call with
  | push pmsg =>
      rw [behindItself_push_iff rep] at behind
      have member : pmsg ∈ lists .pend := by
        simpa using List.mem_of_find?_eq_some behind
      simp only [msgStep, wfMsgPush, rep.forEachPrev, behind, Option.map_some,
        Option.some.injEq] at steps
      subst steps
      exact msgPush_itself rep ((rep.named pmsg .pend).2 member)
  | del pmsg =>
      have listed : s.pque pmsg = some .free := by
        apply (rep.named pmsg .free).2
        rw [← rep.msgsOf]
        exact List.mem_of_getLast? behind
      rw [behindItself_del_iff rep] at behind
      simp only [msgStep, wfMsgDel, behind, Option.some.injEq] at steps
      subst steps
      exact msgPush_itself rep listed
  | new tag => exact behind.elim
  | pushHead pmsg => exact behind.elim
  | get bpop btail => exact behind.elim
  | getDom dom bpop btail => exact behind.elim

end Calls

/-! ## Runs -/

/-- Messages that have just been allocated go to the free queue one by one. -/
theorem alloc_represents (msgs : List pool.Msg) :
    ∀ {s : MsgQue pool} {lists : MsgHead → List pool.Msg}, msgs.Nodup → Represents s lists →
      lists .pend = [] → (∀ pmsg ∈ msgs, s.pque pmsg = none) →
      ∃ lists, Represents (msgs.foldl (fun s pmsg => (wfMsgDel s pmsg).2) s) lists ∧
        lists .pend = [] := by
  induction msgs with
  | nil =>
      intro s lists _ rep none _
      exact ⟨lists, rep, none⟩
  | cons pmsg msgs ih =>
      intro s lists once rep none fresh
      have off : s.pque pmsg = .none := fresh pmsg (by simp)
      have clear : ¬ BehindItself s (.del pmsg) := by
        intro last
        have member : pmsg ∈ lists .free := by
          rw [← rep.msgsOf]
          exact List.mem_of_getLast? last
        exact rep.unlisted off .free member
      obtain ⟨lists', kept, pend⟩ := wfMsgDel_kept rep clear
      apply ih (List.nodup_cons.mp once).2 kept (by simp [pend, none])
      intro other member
      have ne : other ≠ pmsg := fun same => (List.nodup_cons.mp once).1 (same ▸ member)
      simp [wfMsgDel, msgPush, msgPop_unlisted off, ne, fresh other (by simp [member])]

theorem msgStart_represents (pool : MsgPool) :
    ∃ lists, Represents (msgStart pool) lists ∧ lists .pend = [] := by
  apply alloc_represents (List.finRange pool.num) (List.nodup_finRange pool.num)
  · exact ⟨holds_wfQueInit, by simp⟩
  · rfl
  · simp

/-- In the runs without such a call, and in no others, the queues are always well formed. -/
theorem msg_queues_wellFormed_iff (pool : MsgPool) (calls : List (MsgCall pool)) :
    Throughout msgStep WellFormed (msgStart pool) calls ↔
      EachStep msgStep (fun s call => ¬ BehindItself s call) (msgStart pool) calls := by
  apply throughout_iff_of_clean fun s => ∃ lists, Represents s lists
  · intro s rep
    exact wellFormed_iff.2 rep
  · rintro s call ⟨lists, rep⟩ clear
    exact msgStep_kept rep call clear
  · rintro s call next ⟨lists, rep⟩ behind steps
    exact msgStep_behindItself rep (not_not.mp behind) steps
  · obtain ⟨lists, rep, -⟩ := msgStart_represents pool
    exact ⟨lists, rep⟩

theorem two_bounded : 2 < 2 ^ 32 := by
  decide

/-- Two messages of one tag. -/
def twoMsgs : MsgPool := ⟨2, two_bounded, fun _ => 0x1080⟩

def firstMsg : twoMsgs.Msg := Fin.mk 0 Nat.zero_lt_two

def lastMsg : twoMsgs.Msg := Fin.mk 1 Nat.one_lt_two

/-- A message is pushed twice, and one that is free already is freed. -/
theorem msg_pushed_behind_itself :
    ¬ Throughout msgStep WellFormed (msgStart twoMsgs)
        [.new 0x1080, .push firstMsg, .push firstMsg] ∧
      ¬ Throughout msgStep WellFormed (msgStart twoMsgs) [.del lastMsg] := by
  constructor
  · intro throughout
    have ends : ((run msgStep (msgStart twoMsgs)
        [.new 0x1080, .push firstMsg, .push firstMsg]).map fun s =>
          (s.que.links.next (.node firstMsg), s.pque firstMsg)) =
        some (.node firstMsg, some .pend) := by decide +kernel
    obtain ⟨final, ⟨lists, all, -, named⟩, seen⟩ := throughout.observed ends
    simp only [Prod.mk.injEq] at seen
    exact (all.ring .pend).next_ne ((named firstMsg .pend).1 seen.2) seen.1
  · intro throughout
    have ends : ((run msgStep (msgStart twoMsgs) [.del lastMsg]).map fun s =>
          (s.que.links.next (.node lastMsg), s.pque lastMsg)) =
        some (.node lastMsg, some .free) := by decide +kernel
    obtain ⟨final, ⟨lists, all, -, named⟩, seen⟩ := throughout.observed ends
    simp only [Prod.mk.injEq] at seen
    exact (all.ring .free).next_ne ((named lastMsg .free).1 seen.2) seen.1

end Smartchip.Utility.MessageRing
