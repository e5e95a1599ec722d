import Smartchip.Foundation.Ring

/-!
# The queues of the driver

`nic/utility/wf_list.h` and `nic/utility/wf_que.c`.  The queues of a component
share one store of pointers; their heads are named by a type `H` and the
structures that are linked into them by a type `N`.
-/

namespace Smartchip.Utility

open Smartchip.Foundation

universe u v

variable {H : Type u} {N : Type v} [DecidableEq H] [DecidableEq N]

/-! ## Lists -/

def wfListInsert (links : Links H N) (pnew prev pnext : Entry H N) :
    Links H N where
  next := Function.update (Function.update links.next pnew pnext) prev pnew
  prev := Function.update (Function.update links.prev pnext pnew) pnew prev

def wfListInsertNext (links : Links H N) (pnew pos : Entry H N) : Links H N :=
  wfListInsert links pnew pos (links.next pos)

def wfListDel (links : Links H N) (prev pnext : Entry H N) : Links H N where
  next := Function.update links.next prev pnext
  prev := Function.update links.prev pnext prev

def wfListInit (links : Links H N) (plist : Entry H N) : Links H N where
  next := Function.update links.next plist plist
  prev := Function.update links.prev plist plist

def wfListDelete (links : Links H N) (pos : Entry H N) : Links H N :=
  wfListInit (wfListDel links (links.prev pos) (links.next pos)) pos

def wfListIsEmpty (links : Links H N) (phead : Entry H N) : Bool :=
  decide (links.next phead = phead)

theorem wfListInsert_eq (links : Links H N) (pnew prev pnext : Entry H N) :
    wfListInsert links pnew prev pnext = links.linkIn pnew prev pnext := rfl

theorem wfListDelete_eq (links : Links H N) (pos : Entry H N) :
    wfListDelete links pos = links.unlink pos := rfl

/-! ## Queues -/

structure Queues (H : Type u) (N : Type v) where
  links : Links H N
  cnt : H → UInt32

def wfQueIsEmpty (que : Queues H N) (pque : H) : Bool :=
  wfListIsEmpty que.links (.head pque)

def wfQueTail (que : Queues H N) (pque : H) : Option (Entry H N) :=
  if wfQueIsEmpty que pque then none else some (que.links.prev (.head pque))

def wfEnque (que : Queues H N) (pnew pos : Entry H N) (pque : H) :
    Queues H N where
  links := wfListInsertNext que.links pnew pos
  cnt := Function.update que.cnt pque (que.cnt pque + 1)

def wfEnquePrev (que : Queues H N) (pnew pos : Entry H N) (pque : H) :
    Queues H N where
  links := wfListInsertNext que.links pnew (que.links.prev pos)
  cnt := Function.update que.cnt pque (que.cnt pque + 1)

def wfEnqueHead (que : Queues H N) (pnew : Entry H N) (pque : H) : Queues H N :=
  wfEnque que pnew (.head pque) pque

def wfEnqueTail (que : Queues H N) (pnew : Entry H N) (pque : H) : Queues H N :=
  wfEnquePrev que pnew (.head pque) pque

def removed (que : Queues H N) (pos : Entry H N) (pque : H) : Queues H N where
  links := wfListDelete que.links pos
  cnt := Function.update que.cnt pque (que.cnt pque - 1)

/-- An empty queue is left alone, also when `pos` is on another one. -/
def wfDeque (que : Queues H N) (pos : Entry H N) (pque : H) :
    Option (Entry H N) × Queues H N :=
  if wfQueIsEmpty que pque then (none, que) else (some pos, removed que pos pque)

def wfDequeHead (que : Queues H N) (pque : H) :
    Option (Entry H N) × Queues H N :=
  if wfQueIsEmpty que pque then (none, que)
  else
    let plist := que.links.next (.head pque)
    (some plist, removed que plist pque)

/-- Every head after `wf_que_init`; a node that was never queued points nowhere
in particular, here to itself. -/
def wfQueInit : Queues H N where
  links := { next := id, prev := id }
  cnt := fun _ => 0

/-! ## What the queues hold -/

structure Holds (que : Queues H N) (lists : H → List N) : Prop where
  threaded : Lists que.links lists
  cnt : ∀ h, que.cnt h = UInt32.ofNat (lists h).length

section Spec

variable {que : Queues H N} {lists : H → List N} {h : H} {xs ys : List N} {n p : N}

omit [DecidableEq H] [DecidableEq N] in
theorem holds_wfQueInit : Holds (wfQueInit : Queues H N) fun _ => [] := by
  refine ⟨⟨fun h => ⟨?_, List.nodup_nil⟩, fun h k _ => List.disjoint_nil_left _⟩,
    fun h => rfl⟩
  exact List.isChain_pair.mpr ⟨rfl, rfl⟩

omit [DecidableEq N] in
private theorem cnt_update {cnt : H → UInt32} (size : UInt32) (xs : List N)
    (old : ∀ k, cnt k = UInt32.ofNat (lists k).length)
    (new : size = UInt32.ofNat xs.length) (k : H) :
    Function.update cnt h size k =
      UInt32.ofNat (Function.update lists h xs k).length := by
  by_cases same : k = h
  · subst same
    rw [Function.update_self, Function.update_self, new]
  · rw [Function.update_of_ne same, Function.update_of_ne same, old k]

theorem Holds.linkIn (holds : Holds que lists) (split : lists h = xs ++ ys)
    (fresh : ∀ k, n ∉ lists k) :
    Holds ⟨que.links.linkIn (.node n) (before h xs) (after h ys),
      Function.update que.cnt h (que.cnt h + 1)⟩
      (Function.update lists h (xs ++ n :: ys)) := by
  refine ⟨holds.threaded.linkIn split fresh, cnt_update _ _ holds.cnt ?_⟩
  rw [holds.cnt h, split]
  simp [UInt32.ofNat_add, ← Nat.add_assoc]

theorem Holds.removed (holds : Holds que lists) (split : lists h = xs ++ n :: ys) :
    Holds (removed que (.node n) h) (Function.update lists h (xs ++ ys)) := by
  refine ⟨holds.threaded.unlink split, cnt_update _ _ holds.cnt ?_⟩
  rw [holds.cnt h, split]
  simp [UInt32.ofNat_add, ← Nat.add_assoc]

theorem Holds.isEmpty (holds : Holds que lists) :
    wfQueIsEmpty que h = decide (lists h = []) := by
  unfold wfQueIsEmpty wfListIsEmpty
  rw [(holds.threaded.ring h).next_head]
  cases lists h with
  | nil => simp [after]
  | cons n rest => simp [after]

theorem Holds.tail (holds : Holds que lists) (split : lists h = xs ++ [n]) :
    wfQueTail que h = some (.node n) := by
  unfold wfQueTail
  rw [holds.isEmpty, (holds.threaded.ring h).prev_head, split]
  simp [before]

theorem Holds.enqueHead (holds : Holds que lists) (fresh : ∀ k, n ∉ lists k) :
    Holds (wfEnqueHead que (.node n) h)
      (Function.update lists h (n :: lists h)) := by
  have linked := holds.linkIn (List.nil_append (lists h)).symm fresh
  rw [← (holds.threaded.ring h).next_head] at linked
  exact linked

theorem Holds.enquePrev (holds : Holds que lists)
    (split : lists h = xs ++ p :: ys) (fresh : ∀ k, n ∉ lists k) :
    Holds (wfEnquePrev que (.node n) (.node p) h)
      (Function.update lists h (xs ++ n :: p :: ys)) := by
  have ring := holds.threaded.ring h
  rw [split] at ring
  have linked := holds.linkIn split fresh
  unfold wfEnquePrev wfListInsertNext
  rw [ring.prev_node, ring.joined.1, wfListInsert_eq]
  exact linked

theorem Holds.enqueTail_links (holds : Holds que lists) :
    (wfEnqueTail que (.node n) h).links =
      que.links.linkIn (.node n) (before h (lists h)) (after h []) := by
  have ring := holds.threaded.ring h
  unfold wfEnqueTail wfEnquePrev wfListInsertNext
  rw [ring.prev_head]
  rw [← List.append_nil (lists h)] at ring
  rw [ring.joined.1, wfListInsert_eq]

theorem Holds.enqueTail (holds : Holds que lists) (fresh : ∀ k, n ∉ lists k) :
    Holds (wfEnqueTail que (.node n) h)
      (Function.update lists h (lists h ++ [n])) := by
  have linked := holds.linkIn (List.append_nil (lists h)).symm fresh
  rw [← holds.enqueTail_links] at linked
  exact linked

theorem Holds.deque (holds : Holds que lists) (split : lists h = xs ++ n :: ys) :
    Holds (wfDeque que (.node n) h).2 (Function.update lists h (xs ++ ys)) := by
  unfold wfDeque
  rw [holds.isEmpty, split]
  simpa using holds.removed split

theorem Holds.dequeHead_nil (holds : Holds que lists) (empty : lists h = []) :
    wfDequeHead que h = (none, que) := by
  unfold wfDequeHead
  rw [holds.isEmpty, empty]
  rfl

theorem Holds.dequeHead_cons (holds : Holds que lists)
    (first : lists h = n :: ys) :
    ∃ que', wfDequeHead que h = (some (.node n), que') ∧
      Holds que' (Function.update lists h ys) := by
  unfold wfDequeHead
  rw [holds.isEmpty, first, (holds.threaded.ring h).next_head, first]
  exact ⟨_, by simp [after], holds.removed (first.trans (List.nil_append _).symm)⟩

omit [DecidableEq H] [DecidableEq N] in
theorem Holds.unique {others : H → List N} (holds : Holds que lists)
    (other : Holds que others) : lists = others :=
  funext fun h => (holds.threaded.ring h).unique (other.threaded.ring h)

/-! ## Nodes off the queues -/

/-- The queues hold the lists, and a node on none of them points to itself. -/
structure Parked (que : Queues H N) (lists : H → List N) : Prop extends Holds que lists where
  alone : ∀ n, (∀ k, n ∉ lists k) → que.links.Joined (.node n) (.node n)

omit [DecidableEq H] [DecidableEq N] in
theorem parked_wfQueInit : Parked (wfQueInit : Queues H N) fun _ => [] :=
  ⟨holds_wfQueInit, fun _ _ => ⟨rfl, rfl⟩⟩

theorem Parked.dequeHead_cons (parked : Parked que lists) (first : lists h = n :: ys) :
    ∃ que', wfDequeHead que h = (some (.node n), que') ∧
      Parked que' (Function.update lists h ys) := by
  have split : lists h = [] ++ n :: ys := first
  refine ⟨Utility.removed que (.node n) h, ?_, parked.toHolds.removed split, ?_⟩
  · unfold wfDequeHead
    rw [parked.isEmpty, first, (parked.threaded.ring h).next_head, first]
    rfl
  · intro m off
    by_cases taken : m = n
    · subst taken
      exact joined_unlink_self
    · have absent : ∀ k, m ∉ lists k := by
        intro k member
        by_cases same : k = h
        · subst same
          have rest := off k
          rw [Function.update_self] at rest
          rw [first, List.mem_cons] at member
          exact rest (member.resolve_left taken)
        · have rest := off k
          rw [Function.update_of_ne same] at rest
          exact rest member
      exact parked.threaded.unlink_alone (parked.alone m absent) split (absent h)

theorem Parked.enqueTail (parked : Parked que lists) (fresh : ∀ k, n ∉ lists k) :
    Parked (wfEnqueTail que (.node n) h) (Function.update lists h (lists h ++ [n])) := by
  refine ⟨parked.toHolds.enqueTail fresh, ?_⟩
  intro m off
  have here := off h
  rw [Function.update_self, List.mem_append, not_or, List.mem_singleton] at here
  have absent : ∀ k, m ∉ lists k := by
    intro k
    by_cases same : k = h
    · subst same
      exact here.1
    · have rest := off k
      rwa [Function.update_of_ne same] at rest
  rw [parked.enqueTail_links]
  exact Lists.linkIn_alone (parked.alone m absent) (List.append_nil (lists h)).symm
    here.1 here.2

/-- A node that is on no queue is taken off and put on the end of one. -/
theorem Parked.requeue (parked : Parked que lists) (fresh : ∀ k, n ∉ lists k) :
    Parked (wfEnqueTail { que with links := wfListDelete que.links (.node n) } (.node n) h)
      (Function.update lists h (lists h ++ [n])) := by
  rw [wfListDelete_eq, unlink_alone (parked.alone n fresh)]
  exact parked.enqueTail fresh

end Spec

end Smartchip.Utility
