import Mathlib.Data.Nat.Bitwise
import Smartchip.Foundation.StableSort
import Smartchip.Utility.MessageRing

/-!
# The order of the pending messages

`nic/utility/wf_msg.c`.  A message is pushed behind those that are at least as urgent, the
walk starting at the tail, or in front of those of its domain, the walk starting at the head.
-/

namespace Smartchip.Utility.MessageRing

open Smartchip.Foundation Smartchip.Utility

variable {pool : MsgPool}

/-! ## The tags -/

def urgency (pmsg : pool.Msg) : Nat := (tagUrgency (pool.tag pmsg)).toNat

def dom (pmsg : pool.Msg) : Nat := (tagDom (pool.tag pmsg)).toNat

theorem tagDom_toNat (tag : UInt16) : (tagDom tag).toNat = tag.toNat / 2 ^ 12 := by
  have small : tag.toNat < 2 ^ 16 := tag.toNat_lt
  have masked : tag.toNat / 2 ^ 12 &&& 15 = tag.toNat / 2 ^ 12 % 16 :=
    Nat.and_two_pow_sub_one_eq_mod _ 4
  simp only [tagDom, UInt16.toNat_and, UInt16.toNat_shiftRight, Nat.shiftRight_eq_div_pow,
    UInt16.reduceToNat, Nat.reduceMod, masked]
  omega

/-- The identifier has no part in the domain. -/
theorem tagDom_tagUrgency (tag : UInt16) :
    (tagUrgency tag).toNat / 2 ^ 12 = tag.toNat / 2 ^ 12 := by
  simp only [tagUrgency, UInt16.toNat_or, UInt16.reduceToNat, ← Nat.shiftRight_eq_div_pow,
    Nat.shiftRight_or_distrib]
  simp

theorem dom_le_of_urgency_le {one other : pool.Msg} (le : urgency one ≤ urgency other) :
    dom one ≤ dom other := by
  unfold dom
  rw [tagDom_toNat, tagDom_toNat, ← tagDom_tagUrgency, ← tagDom_tagUrgency (pool.tag other)]
  exact Nat.div_le_div_right le

theorem tagUrgency_le_iff (one other : pool.Msg) :
    tagUrgency (pool.tag one) ≤ tagUrgency (pool.tag other) ↔ urgency one ≤ urgency other :=
  UInt16.le_iff_toNat_le

theorem tagDom_le_iff (one other : pool.Msg) :
    tagDom (pool.tag one) ≤ tagDom (pool.tag other) ↔ dom one ≤ dom other :=
  UInt16.le_iff_toNat_le

/-! ## What each call does to the pending list -/

section Calls

variable {s : MsgQue pool} {lists : MsgHead → List pool.Msg} {pmsg : pool.Msg}

/-- The walk from the tail stops at the last message that it is to stop at. -/
theorem found_reverse {h : MsgHead} (xs : List pool.Msg) (stop : pool.Msg → Bool) :
    ∃ front back, xs = front ++ back ∧ found h (xs.reverse.find? stop) = before h front ∧
      (∀ last ∈ front.getLast?, stop last) ∧ ∀ y ∈ back, stop y = false := by
  cases first : xs.reverse.find? stop with
  | none =>
      refine ⟨[], xs, rfl, rfl, by simp, ?_⟩
      simpa using first
  | some last =>
      obtain ⟨stops, back, front, split, passed⟩ := List.find?_eq_some_iff_append.mp first
      refine ⟨front.reverse ++ [last], back.reverse, ?_, by simp [found, before], by simpa, ?_⟩
      · rw [← List.reverse_inj, split]
        simp
      · simpa using passed

/-- The walk from the head stops at the first one, and the place is in front of that. -/
theorem prev_found {h : MsgHead} (rep : Represents s lists) (stop : pool.Msg → Bool) :
    ∃ front back, lists h = front ++ back ∧
      s.que.links.prev (found h ((lists h).find? stop)) = before h front ∧
      (∀ x ∈ front, stop x = false) ∧ ∀ first ∈ back.head?, stop first := by
  have ring := rep.ring h
  cases first : (lists h).find? stop with
  | none =>
      refine ⟨lists h, [], by simp, ring.prev_head, ?_, by simp⟩
      simpa using first
  | some n =>
      obtain ⟨stops, front, back, split, passed⟩ := List.find?_eq_some_iff_append.mp first
      rw [split] at ring
      refine ⟨front, n :: back, split, ring.prev_node, ?_, by simpa⟩
      simpa using passed

/-- A message that is not pending is put somewhere into the pending list. -/
theorem msgPush_pend {front back : List pool.Msg} (rep : Represents s lists)
    (absent : pmsg ∉ lists .pend) (split : lists .pend = front ++ back) :
    ∃ lists', Represents (msgPush s .pend (before .pend front) pmsg).2 lists' ∧
      lists' .pend = front ++ pmsg :: back := by
  refine ⟨_, msgPush_lists rep ((List.erase_of_not_mem absent).trans split), ?_⟩
  simp [putBehind]

theorem wfMsgPush_pend (rep : Represents s lists) (absent : pmsg ∉ lists .pend) :
    ∃ front back, lists .pend = front ++ back ∧
      (∀ last ∈ front.getLast?, urgency last ≤ urgency pmsg) ∧
      (∀ y ∈ back, urgency pmsg < urgency y) ∧
      ∃ next lists', wfMsgPush s pmsg = some (0, next) ∧ Represents next lists' ∧
        lists' .pend = front ++ pmsg :: back := by
  obtain ⟨front, back, split, place, last, passed⟩ := found_reverse (h := MsgHead.pend)
    (lists .pend) fun tmp => decide (tagUrgency (pool.tag tmp) ≤ tagUrgency (pool.tag pmsg))
  obtain ⟨lists', kept, pend⟩ := msgPush_pend rep absent split
  refine ⟨front, back, split, ?_, ?_, _, lists', ?_, kept, pend⟩
  · simpa [tagUrgency_le_iff] using last
  · simpa [tagUrgency_le_iff] using passed
  · simp [wfMsgPush, rep.forEachPrev, place, msgPush]

theorem wfMsgPushHead_pend (rep : Represents s lists) (absent : pmsg ∉ lists .pend) :
    ∃ front back, lists .pend = front ++ back ∧
      (∀ x ∈ front, dom x < dom pmsg) ∧
      (∀ first ∈ back.head?, dom pmsg ≤ dom first) ∧
      ∃ next lists', wfMsgPushHead s pmsg = some (0, next) ∧ Represents next lists' ∧
        lists' .pend = front ++ pmsg :: back := by
  obtain ⟨front, back, split, place, passed, first⟩ := prev_found rep
    fun tmp => decide (tagDom (pool.tag pmsg) ≤ tagDom (pool.tag tmp))
  obtain ⟨lists', kept, pend⟩ := msgPush_pend rep absent split
  refine ⟨front, back, split, ?_, ?_, _, lists', ?_, kept, pend⟩
  · simpa [tagDom_le_iff] using passed
  · simpa [tagDom_le_iff] using first
  · simp [wfMsgPushHead, rep.forEach, place, msgPush]

/-- What the pending list is when a message has been given out of it. -/
def rest (bpop : Bool) (given : Option pool.Msg) (msgs : List pool.Msg) : List pool.Msg :=
  match given with
  | some pmsg => if bpop then msgs.erase pmsg else msgs
  | none => msgs

theorem msgGive_pend (rep : Represents s lists) (bpop : Bool) (pmsg : pool.Msg) :
    ∃ next lists', msgGive s bpop pmsg = ((0, some pmsg), next) ∧ Represents next lists' ∧
      lists' .pend = rest bpop (some pmsg) (lists .pend) := by
  cases bpop with
  | false => exact ⟨s, lists, rfl, rep, rfl⟩
  | true =>
      have zero : (msgPop s pmsg).1 = 0 := by
        cases listed : s.pque pmsg with
        | none => rw [msgPop_unlisted listed]
        | some h => rw [msgPop_listed rep listed]
      exact ⟨_, _, by simp [msgGive, zero], rep.pop pmsg, rfl⟩

theorem msgGet_pend (rep : Represents s lists) (bpop btail : Bool) :
    ∃ next lists', msgGet s bpop btail =
        some ((if lists .pend = [] then -2 else 0,
          if btail then (lists .pend).getLast? else (lists .pend).head?), next) ∧
      Represents next lists' ∧
      lists' .pend = rest bpop
        (if btail then (lists .pend).getLast? else (lists .pend).head?) (lists .pend) := by
  have ring := rep.ring .pend
  simp only [msgGet, rep.holds.isEmpty, ring.next_head, ring.prev_head]
  cases pending : lists .pend with
  | nil => exact ⟨s, lists, by simp, rep, by simp [rest, pending]⟩
  | cons first more =>
      cases btail with
      | false =>
          obtain ⟨next, lists', gives, kept, pend⟩ := msgGive_pend rep bpop first
          exact ⟨next, lists', by simpa [after] using gives, kept, by simpa [pending] using pend⟩
      | true =>
          have last := List.getLast?_eq_some_getLast (List.cons_ne_nil first more)
          obtain ⟨next, lists', gives, kept, pend⟩ := msgGive_pend rep bpop
            ((first :: more).getLast (List.cons_ne_nil first more))
          refine ⟨next, lists', ?_, kept, ?_⟩
          · simpa [before, last] using gives
          · simpa [last, pending] using pend

/-- The first message of a domain, or the last one. -/
def pick (d : Nat) (btail : Bool) (msgs : List pool.Msg) : Option pool.Msg :=
  (if btail then msgs.reverse else msgs).find? fun pmsg => dom pmsg = d

theorem msgGetDom_pend (rep : Represents s lists) (d : UInt16) (bpop btail : Bool) :
    ∃ next lists', msgGetDom s d bpop btail =
        some ((if (pick d.toNat btail (lists .pend)).isSome then 0 else -1,
          pick d.toNat btail (lists .pend)), next) ∧
      Represents next lists' ∧
      lists' .pend = rest bpop (pick d.toNat btail (lists .pend)) (lists .pend) := by
  have same : (fun tmp => decide (tagDom (pool.tag tmp) = d)) =
      fun pmsg : pool.Msg => decide (dom pmsg = d.toNat) := by
    funext pmsg
    simp [dom, UInt16.toNat_inj]
  have ends : (if btail then forEachPrev s .pend fun tmp => decide (tagDom (pool.tag tmp) = d)
        else forEach s .pend fun tmp => decide (tagDom (pool.tag tmp) = d)) =
      some (found .pend (pick d.toNat btail (lists .pend))) := by
    rw [same]
    cases btail with
    | true => exact rep.forEachPrev
    | false => exact rep.forEach
  simp only [msgGetDom, ends]
  cases pick d.toNat btail (lists .pend) with
  | none => exact ⟨s, lists, by simp [found], rep, rfl⟩
  | some pmsg =>
      obtain ⟨next, lists', gives, kept, pend⟩ := msgGive_pend rep bpop pmsg
      exact ⟨next, lists', by simpa [found] using gives, kept, pend⟩

theorem wfMsgNew_pend (rep : Represents s lists) (tag : UInt16) :
    ∃ new next lists', wfMsgNew s tag = some (new, next) ∧ Represents next lists' ∧
      lists' .pend = lists .pend := by
  simp only [wfMsgNew, rep.forEach]
  split_ifs with empty
  · exact ⟨_, s, lists, rfl, rep, rfl⟩
  · cases first : (lists .free).find? fun pmsg => pool.tag pmsg = tag with
    | none => exact ⟨_, s, lists, rfl, rep, rfl⟩
    | some pmsg =>
        have listed := (rep.named pmsg .free).2 (List.mem_of_find?_eq_some first)
        obtain ⟨next, lists', gives, kept, pend⟩ := msgGive_pend rep true pmsg
        refine ⟨(0, some pmsg), next, lists', ?_, kept, ?_⟩
        · simp [found, gives]
        · rw [pend]
          exact List.erase_of_not_mem (rep.elsewhere listed (by decide))

end Calls

/-! ## The messages that are outstanding -/

/-- The queues, and the messages that have been pushed and not been taken out since, in the
order in which they were pushed. -/
structure Ledger (pool : MsgPool) where
  que : MsgQue pool
  pushed : List pool.Msg

def ledgerStart (pool : MsgPool) : Ledger pool := ⟨msgStart pool, []⟩

def ledgerStep (l : Ledger pool) : MsgCall pool → Option (Ledger pool)
  | .new tag => (wfMsgNew l.que tag).map fun r => ⟨r.2, l.pushed⟩
  | .push pmsg => (wfMsgPush l.que pmsg).map fun r => ⟨r.2, l.pushed ++ [pmsg]⟩
  | .pushHead pmsg => (wfMsgPushHead l.que pmsg).map fun r => ⟨r.2, l.pushed ++ [pmsg]⟩
  | .get bpop btail => (msgGet l.que bpop btail).map fun r => ⟨r.2, rest bpop r.1.2 l.pushed⟩
  | .getDom d bpop btail =>
      (msgGetDom l.que d bpop btail).map fun r => ⟨r.2, rest bpop r.1.2 l.pushed⟩
  | .del pmsg => some ⟨(wfMsgDel l.que pmsg).2, l.pushed.erase pmsg⟩

/-- No outstanding message is pushed again, and the last free one is not freed again. -/
def Distinct (l : Ledger pool) : MsgCall pool → Prop
  | .push pmsg | .pushHead pmsg => pmsg ∉ l.pushed
  | .del pmsg => ¬ BehindItself l.que (.del pmsg)
  | .new _ | .get _ _ | .getDom _ _ _ => True

instance (l : Ledger pool) : ∀ call, Decidable (Distinct l call)
  | .push pmsg | .pushHead pmsg => inferInstanceAs (Decidable (pmsg ∉ l.pushed))
  | .del pmsg => inferInstanceAs (Decidable (¬ (msgsOf l.que .free).getLast? = some pmsg))
  | .new _ | .get _ _ | .getDom _ _ _ => isTrue trivial

/-- The order by the tag with the bits of the identifier set. -/
def ByPriority (l : Ledger pool) : Prop :=
  msgsOf l.que .pend =
    l.pushed.mergeSort fun a b => tagUrgency (pool.tag a) ≤ tagUrgency (pool.tag b)

/-- What the pending messages are and what the functions that look at them give out. -/
structure ByDomain (l : Ledger pool) : Prop where
  perm : (msgsOf l.que .pend).Perm l.pushed
  ordered : (msgsOf l.que .pend).Pairwise fun a b =>
    tagDom (pool.tag a) ≤ tagDom (pool.tag b)
  least : ∀ pmsg ∈ (msgsOf l.que .pend).head?, ∀ other ∈ l.pushed,
    tagDom (pool.tag pmsg) ≤ tagDom (pool.tag other)
  get : ∀ bpop btail, ∃ next,
    msgGet l.que bpop btail = some ((if l.pushed = [] then -2 else 0,
      if btail then (msgsOf l.que .pend).getLast? else (msgsOf l.que .pend).head?), next) ∧
    msgsOf next .pend =
      if bpop then
        if btail then (msgsOf l.que .pend).dropLast else (msgsOf l.que .pend).tail
      else msgsOf l.que .pend
  getDom : ∀ d bpop btail, ∃ next,
    msgGetDom l.que d bpop btail =
      some ((if ∃ pmsg ∈ l.pushed, tagDom (pool.tag pmsg) = d then 0 else -1,
        if btail then (msgsOf l.que .pend).reverse.find? fun pmsg => tagDom (pool.tag pmsg) = d
        else (msgsOf l.que .pend).find? fun pmsg => tagDom (pool.tag pmsg) = d), next)

section Steps

variable {l : Ledger pool} {lists : MsgHead → List pool.Msg} {call : MsgCall pool}

/-- What the ledger and the lists have in common. -/
structure Keeps (l : Ledger pool) (lists : MsgHead → List pool.Msg) : Prop where
  rep : Represents l.que lists
  perm : (lists .pend).Perm l.pushed
  ordered : (lists .pend).Pairwise fun a b => dom a ≤ dom b

theorem rest_perm {xs ys : List pool.Msg} (perm : xs.Perm ys) (bpop : Bool)
    (given : Option pool.Msg) : (rest bpop given xs).Perm (rest bpop given ys) := by
  cases given with
  | none => exact perm
  | some pmsg =>
      cases bpop with
      | false => exact perm
      | true => exact perm.erase pmsg

theorem rest_sublist (bpop : Bool) (given : Option pool.Msg) (xs : List pool.Msg) :
    (rest bpop given xs).Sublist xs := by
  cases given with
  | none => exact .refl xs
  | some pmsg =>
      cases bpop with
      | false => exact .refl xs
      | true => exact List.erase_sublist

theorem rest_stableSort {came sorted : List pool.Msg}
    (sorts : StableSort urgency came sorted) (bpop : Bool) (given : Option pool.Msg) :
    StableSort urgency (rest bpop given came) (rest bpop given sorted) := by
  cases given with
  | none => exact sorts
  | some pmsg =>
      cases bpop with
      | false => exact sorts
      | true => exact sorts.erase pmsg

theorem rest_head (xs : List pool.Msg) : rest true xs.head? xs = xs.tail := by
  cases xs <;> simp [rest]

theorem rest_getLast {xs : List pool.Msg} (once : xs.Nodup) :
    rest true xs.getLast? xs = xs.dropLast := by
  rcases xs.eq_nil_or_concat with rfl | ⟨init, y, rfl⟩
  · rfl
  · rw [List.concat_eq_append] at once ⊢
    have absent : y ∉ init := fun member =>
      (List.nodup_append.mp once).2.2 y member y (by simp) rfl
    simp [rest, List.erase_append_right _ absent]

/-- In front of an insertion nothing is greater when the last thing is not. -/
theorem front_le {f : pool.Msg → Nat} {front back : List pool.Msg} {bound : Nat}
    (ordered : (front ++ back).Pairwise fun a b => f a ≤ f b)
    (last : ∀ x ∈ front.getLast?, f x ≤ bound) : ∀ x ∈ front, f x ≤ bound := by
  intro x member
  rcases front.eq_nil_or_concat with rfl | ⟨init, y, rfl⟩
  · simp at member
  · have top : f y ≤ bound := last y (by simp)
    rw [List.concat_eq_append] at ordered member
    have sorted := (List.pairwise_append.mp ordered).1
    rcases List.mem_append.mp member with early | same
    · exact ((List.pairwise_append.mp sorted).2.2 x early y (by simp)).trans top
    · exact List.mem_singleton.mp same ▸ top

theorem le_back {f : pool.Msg → Nat} {front back : List pool.Msg} {bound : Nat}
    (ordered : (front ++ back).Pairwise fun a b => f a ≤ f b)
    (first : ∀ y ∈ back.head?, bound ≤ f y) : ∀ y ∈ back, bound ≤ f y := by
  intro y member
  cases back with
  | nil => simp at member
  | cons z back =>
      have low : bound ≤ f z := first z rfl
      have behind := (List.pairwise_append.mp ordered).2.1
      rcases List.mem_cons.mp member with rfl | later
      · exact low
      · exact low.trans ((List.pairwise_cons.mp behind).1 y later)

theorem Keeps.absent {pmsg : pool.Msg} (keeps : Keeps l lists) (fresh : pmsg ∉ l.pushed) :
    pmsg ∉ lists .pend := fun member => fresh (keeps.perm.mem_iff.mp member)

theorem Keeps.rest {lists' : MsgHead → List pool.Msg} {next : MsgQue pool} {bpop : Bool}
    {given : Option pool.Msg} (keeps : Keeps l lists) (rep : Represents next lists')
    (pend : lists' .pend = MessageRing.rest bpop given (lists .pend)) :
    Keeps ⟨next, MessageRing.rest bpop given l.pushed⟩ lists' where
  rep := rep
  perm := pend ▸ rest_perm keeps.perm bpop given
  ordered := pend ▸ keeps.ordered.sublist (rest_sublist bpop given (lists .pend))

/-- One call, and what it does when the pending list is a stable sort already. -/
theorem ledgerStep_keeps (keeps : Keeps l lists) (distinct : Distinct l call) :
    ∃ next lists', ledgerStep l call = some next ∧ Keeps next lists' ∧
      ((∀ pmsg, call ≠ .pushHead pmsg) → StableSort urgency l.pushed (lists .pend) →
        StableSort urgency next.pushed (lists' .pend)) := by
  cases call with
  | new tag =>
      obtain ⟨new, next, lists', steps, rep, pend⟩ := wfMsgNew_pend keeps.rep tag
      refine ⟨⟨next, l.pushed⟩, lists', by simp [ledgerStep, steps], ?_, fun _ => ?_⟩
      · exact ⟨rep, pend ▸ keeps.perm, pend ▸ keeps.ordered⟩
      · exact fun sorts => pend ▸ sorts
  | push pmsg =>
      obtain ⟨front, back, split, last, behind, next, lists', steps, rep, pend⟩ :=
        wfMsgPush_pend keeps.rep (keeps.absent distinct)
      refine ⟨⟨next, l.pushed ++ [pmsg]⟩, lists', by simp [ledgerStep, steps], ?_, fun _ => ?_⟩
      · have perm := keeps.perm
        have ordered := keeps.ordered
        rw [split] at perm ordered
        refine ⟨rep, pend ▸ perm_insert perm, pend ▸ pairwise_insert ordered ?_ ?_⟩
        · apply front_le ordered
          exact fun x member => dom_le_of_urgency_le (last x member)
        · exact fun y member => dom_le_of_urgency_le (le_of_lt (behind y member))
      · intro sorts
        rw [split] at sorts
        rw [pend]
        exact sorts.insert (front_le sorts.ordered last) behind
  | pushHead pmsg =>
      obtain ⟨front, back, split, before, first, next, lists', steps, rep, pend⟩ :=
        wfMsgPushHead_pend keeps.rep (keeps.absent distinct)
      refine ⟨⟨next, l.pushed ++ [pmsg]⟩, lists', by simp [ledgerStep, steps], ?_, ?_⟩
      · have perm := keeps.perm
        have ordered := keeps.ordered
        rw [split] at perm ordered
        refine ⟨rep, pend ▸ perm_insert perm, pend ▸ pairwise_insert ordered ?_ ?_⟩
        · exact fun x member => le_of_lt (before x member)
        · exact le_back ordered first
      · intro no
        exact absurd rfl (no pmsg)
  | get bpop btail =>
      obtain ⟨next, lists', steps, rep, pend⟩ := msgGet_pend keeps.rep bpop btail
      refine ⟨_, lists', by simp only [ledgerStep, steps, Option.map_some],
        keeps.rest rep pend, fun _ sorts => ?_⟩
      rw [pend]
      exact rest_stableSort sorts bpop _
  | getDom d bpop btail =>
      obtain ⟨next, lists', steps, rep, pend⟩ := msgGetDom_pend keeps.rep d bpop btail
      refine ⟨_, lists', by simp only [ledgerStep, steps, Option.map_some],
        keeps.rest rep pend, fun _ sorts => ?_⟩
      rw [pend]
      exact rest_stableSort sorts bpop _
  | del pmsg =>
      obtain ⟨lists', rep, pend⟩ := wfMsgDel_kept keeps.rep distinct
      refine ⟨⟨_, l.pushed.erase pmsg⟩, lists', rfl, ?_, fun _ sorts => ?_⟩
      · refine ⟨rep, pend ▸ keeps.perm.erase pmsg, ?_⟩
        exact pend ▸ keeps.ordered.sublist List.erase_sublist
      · exact pend ▸ sorts.erase pmsg

/-! ## What is given out -/

theorem Keeps.byDomain (keeps : Keeps l lists) : ByDomain l where
  perm := by
    rw [keeps.rep.msgsOf]
    exact keeps.perm
  ordered := by
    rw [keeps.rep.msgsOf]
    simpa only [tagDom_le_iff] using keeps.ordered
  least := by
    intro pmsg first other pushed
    rw [keeps.rep.msgsOf] at first
    rw [tagDom_le_iff]
    have member := keeps.perm.mem_iff.mpr pushed
    have ordered := keeps.ordered
    cases pending : lists .pend with
    | nil => simp [pending] at first
    | cons head more =>
        rw [pending] at first member ordered
        obtain rfl : head = pmsg := by simpa using first
        rcases List.mem_cons.mp member with rfl | later
        · exact le_rfl
        · exact (List.pairwise_cons.mp ordered).1 other later
  get := by
    intro bpop btail
    obtain ⟨next, lists', steps, rep, pend⟩ := msgGet_pend keeps.rep bpop btail
    have once := (keeps.rep.ring .pend).nodup
    have none : lists .pend = [] ↔ l.pushed = [] := by
      rw [← List.length_eq_zero_iff, ← List.length_eq_zero_iff, keeps.perm.length_eq]
    refine ⟨next, by simpa only [keeps.rep.msgsOf, ← none] using steps, ?_⟩
    rw [rep.msgsOf, keeps.rep.msgsOf, pend]
    cases bpop with
    | false => cases (if btail then _ else _ : Option pool.Msg) <;> rfl
    | true =>
        cases btail with
        | false => exact rest_head _
        | true => exact rest_getLast once
  getDom := by
    intro d bpop btail
    obtain ⟨next, lists', steps, -, -⟩ := msgGetDom_pend keeps.rep d bpop btail
    have same : ∀ pmsg : pool.Msg, dom pmsg = d.toNat ↔ tagDom (pool.tag pmsg) = d :=
      fun pmsg => UInt16.toNat_inj
    have some : (pick d.toNat btail (lists .pend)).isSome ↔
        ∃ pmsg ∈ l.pushed, tagDom (pool.tag pmsg) = d := by
      simp only [← same, ← keeps.perm.mem_iff, pick]
      cases btail <;> simp
    refine ⟨next, ?_⟩
    simp only [keeps.rep.msgsOf, steps, some]
    cases btail <;> simp [pick, same]

theorem Keeps.byPriority (keeps : Keeps l lists)
    (sorts : StableSort urgency l.pushed (lists .pend)) : ByPriority l := by
  unfold ByPriority
  rw [keeps.rep.msgsOf]
  simp only [tagUrgency_le_iff]
  exact sorts.eq_mergeSort

end Steps

/-- In every run in which no outstanding message is pushed again, the pending messages are in
the order of their domains; when none is pushed to the head they are the stable sort of what
is outstanding. -/
theorem msg_order (pool : MsgPool) (calls : List (MsgCall pool))
    (distinct : EachStep ledgerStep Distinct (ledgerStart pool) calls) :
    Throughout ledgerStep ByDomain (ledgerStart pool) calls ∧
      ((∀ call ∈ calls, ∀ pmsg, call ≠ .pushHead pmsg) →
        Throughout ledgerStep ByPriority (ledgerStart pool) calls) := by
  obtain ⟨lists, rep, none⟩ := msgStart_represents pool
  have keeps : Keeps (ledgerStart pool) lists := by
    refine ⟨rep, ?_, ?_⟩
    · simp [none, ledgerStart]
    · simp [none]
  have sorts : StableSort urgency (ledgerStart pool).pushed (lists .pend) := by
    rw [none]
    exact .nil
  constructor
  · apply distinct.throughout fun l => ∃ lists, Keeps l lists
    · rintro l ⟨lists, keeps⟩
      exact keeps.byDomain
    · rintro l call ⟨lists, keeps⟩ allowed
      obtain ⟨next, lists', steps, kept, -⟩ := ledgerStep_keeps keeps allowed
      exact ⟨next, steps, lists', kept⟩
    · exact ⟨lists, keeps⟩
  · intro behind
    apply (distinct.and_mem behind).throughout fun l =>
      ∃ lists, Keeps l lists ∧ StableSort urgency l.pushed (lists .pend)
    · rintro l ⟨lists, keeps, sorts⟩
      exact keeps.byPriority sorts
    · rintro l call ⟨lists, keeps, sorts⟩ ⟨allowed, tail⟩
      obtain ⟨next, lists', steps, kept, more⟩ := ledgerStep_keeps keeps allowed
      exact ⟨next, steps, lists', kept, more tail sorts⟩
    · exact ⟨lists, keeps, sorts⟩

/-- Three messages of two domains, the last two of one priority. -/
def threeMsgs : MsgPool := ⟨3, by decide, fun n => [0x2080, 0x1101, 0x1102].getD n.val 0⟩

def threePushed : List (MsgCall threeMsgs) :=
  let msg : Nat → threeMsgs.Msg := fun n => Fin.ofNat 3 n
  [.new 0x2080, .push (msg 0), .new 0x1101, .push (msg 1), .new 0x1102, .push (msg 2),
    .getDom 1 false true, .get true false, .del (msg 1)]

theorem msg_order_three :
    (Throughout ledgerStep ByDomain (ledgerStart threeMsgs) threePushed ∧
      ((∀ call ∈ threePushed, ∀ pmsg, call ≠ .pushHead pmsg) →
        Throughout ledgerStep ByPriority (ledgerStart threeMsgs) threePushed)) ∧
    (run ledgerStep (ledgerStart threeMsgs) (threePushed.take 6)).map
      (fun l => (msgsOf l.que .pend).map Fin.val) = some [1, 2, 0] :=
  ⟨msg_order threeMsgs threePushed (by decide +kernel), by decide +kernel⟩

end Smartchip.Utility.MessageRing
