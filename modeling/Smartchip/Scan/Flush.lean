import Smartchip.Scan.Invariant

/-!
# Flushing the scan results

`wlan_mgmt_scan_que_node_flush` gives `wf_list_for_each_safe` the call
`wf_deque_head(&pscan_que->ready)` for the head of the list, so every test of
the loop takes one more node out of the ready queue.
-/

namespace Smartchip.Scan

open Smartchip.Foundation Smartchip.Frame Smartchip.Utility

/-- What `wf_list_entry` makes of an entry.  Behind the head of a queue there
is no node; `overlay` is whatever lies where its BSSID would be. -/
def entryBssid (overlay : ScanList → Queues ScanList Nat → MacAddr) (s : ScanQue)
    (que : Queues ScanList Nat) : ScanEntry → MacAddr
  | .head h => overlay h que
  | .node i => (s.node i).bssid

def flushBody (overlay : ScanList → Queues ScanList Nat → MacAddr) (s : ScanQue)
    (que : Queues ScanList Nat) (pos : ScanEntry) : Queues ScanList Nat :=
  if isBssOnlink s (entryBssid overlay s que pos) then que
  else wfEnqueTail (wfDeque que pos .ready).2 pos .free

/-- `none` when the loop is still going after `fuel` turns.  A pointer to an
entry is never `NULL`, what `wf_deque_head` returns for an empty queue. -/
def flushLoop (overlay : ScanList → Queues ScanList Nat → MacAddr) (s : ScanQue) :
    Nat → ScanEntry → ScanEntry → Queues ScanList Nat → Option (Queues ScanList Nat)
  | 0, _, _, _ => none
  | fuel + 1, pos, n, que =>
      let head := wfDequeHead que .ready
      if head.1 = some pos then some head.2
      else
        let que := flushBody overlay s head.2 pos
        flushLoop overlay s fuel n (que.links.next n) que

def wlanMgmtScanQueNodeFlush (overlay : ScanList → Queues ScanList Nat → MacAddr)
    (fuel : Nat) (s : ScanQue) : Option ScanQue :=
  if wfQueIsEmpty s.que .ready then some s
  else if s.sema = 0 then some s
  else
    match wfDequeHead s.que .ready with
    | (none, _) => none
    | (some first, que) =>
        let pos := que.links.next first
        (flushLoop overlay s fuel pos (que.links.next pos) que).map fun que =>
          { s with que }

/-- The node of the BSS in use stays ready, every other node gets free. -/
def Flushed (s s' : ScanQue) (lists : ScanList → List Nat) : Prop :=
  ∃ lists', Holds s'.que lists' ∧
    lists' .ready = (lists .ready).filter (fun i => isBssOnlink s (s.node i).bssid) ∧
    (lists' .free).Perm (lists .free ++
      (lists .ready).filter fun i => !isBssOnlink s (s.node i).bssid)

/-! ## The loop never ends -/

/-- The loop is in a part of the pointers that does not lead to the ready
queue. -/
structure Astray (links : Links ScanList Nat) (ready : List Nat)
    (part : ScanEntry → Prop) : Prop where
  ring : Threads links .ready ready
  closed : Closed links part
  outside : ∀ e ∈ cycle .ready ready, ¬ part e
  free : part (.head .free)

section Loop

variable {links : Links ScanList Nat} {ready : List Nat} {part : ScanEntry → Prop}
  {que : Queues ScanList Nat} {pos n : ScanEntry} {s : ScanQue}
  {overlay : ScanList → Queues ScanList Nat → MacAddr}

theorem Astray.join {a b : ScanEntry} (astray : Astray links ready part) (ha : part a)
    (hb : part b) : Astray (links.join a b) ready part :=
  ⟨astray.ring.join_inside astray.outside ha hb, astray.closed.join ha hb,
    astray.outside, astray.free⟩

theorem Astray.unlink (astray : Astray links ready part) (hpos : part pos) :
    Astray (wfListDelete links pos) ready part :=
  (astray.join (astray.closed pos hpos).2 (astray.closed pos hpos).1).join hpos hpos

theorem Astray.insertNext {a : ScanEntry} (astray : Astray links ready part)
    (hpos : part pos) (ha : part a) :
    Astray (wfListInsertNext links pos a) ready part :=
  (astray.join hpos (astray.closed a ha).1).join ha hpos

theorem Astray.body (overlay : ScanList → Queues ScanList Nat → MacAddr)
    (s : ScanQue) (astray : Astray que.links ready part) (hpos : part pos) :
    Astray (flushBody overlay s que pos).links ready part := by
  unfold flushBody
  split
  · exact astray
  · have dequeued : Astray (wfDeque que pos .ready).2.links ready part := by
      unfold wfDeque
      split
      · exact astray
      · exact astray.unlink hpos
    exact dequeued.insertNext hpos (dequeued.closed _ dequeued.free).2

/-- The test of the loop shortens the ready queue and does not find `pos`. -/
theorem Astray.test (astray : Astray que.links ready part) (hpos : part pos) :
    (wfDequeHead que .ready).1 ≠ some pos ∧
      Astray (wfDequeHead que .ready).2.links ready.tail part := by
  have ring := astray.ring
  unfold wfDequeHead wfQueIsEmpty wfListIsEmpty
  cases ready with
  | nil =>
      rw [if_pos (by rw [ring.next_head]; rfl)]
      exact ⟨by simp, astray⟩
  | cons x ready =>
      have first : que.links.next (.head .ready) = .node x := ring.next_head
      rw [first, if_neg (by simp)]
      have inside : Entry.node x ∈ cycle ScanList.ready (x :: ready) :=
        mem_cycle.mpr (.inr ⟨x, by simp, rfl⟩)
      have notPart := astray.outside _ inside
      have neighbours := ring.closed _ inside
      have notNext := astray.outside _ neighbours.1
      have notPrev := astray.outside _ neighbours.2
      constructor
      · intro same
        exact notPart (Option.some.inj same ▸ hpos)
      · refine ⟨?_, ?_, ?_, astray.free⟩
        · rw [← List.nil_append (x :: ready)] at ring
          exact ring.unlink
        · exact (astray.closed.join_outside notPrev notNext).join_outside notPart notPart
        · intro e member
          apply astray.outside e
          rw [mem_cycle] at member ⊢
          cases member with
          | inl head => exact .inl head
          | inr node =>
              obtain ⟨i, later, same⟩ := node
              exact .inr ⟨i, List.mem_cons_of_mem _ later, same⟩

theorem Astray.loop (astray : Astray que.links ready part) (hpos : part pos)
    (hn : part n) (fuel : Nat) : flushLoop overlay s fuel pos n que = none := by
  induction fuel generalizing pos n que ready with
  | zero => rfl
  | succ fuel ih =>
      obtain ⟨notFound, shorter⟩ := astray.test hpos
      have next := shorter.body overlay s hpos
      rw [flushLoop]
      simp only [notFound, if_false]
      exact ih next hn (next.closed n hn).1

/-- The first node points to itself once it is dequeued. -/
theorem Astray.start {lists : ScanList → List Nat} {x : Nat} {rest : List Nat}
    (holds : Holds que lists) (ready : lists .ready = x :: rest) :
    ∃ que', wfDequeHead que .ready = (some (.node x), que') ∧
      que'.links.next (.node x) = .node x ∧
      ∃ part, Astray que'.links rest part ∧ part (.node x) := by
  have ring := holds.threaded.ring .ready
  rw [ready] at ring
  have alone := (List.nodup_cons.mp ring.nodup).1
  obtain ⟨que', taken, holds'⟩ := holds.dequeHead_cons ready
  have self : que'.links.Joined (.node x) (.node x) := by
    have removed : que' = removed que (.node x) .ready := by
      unfold wfDequeHead at taken
      rw [holds.isEmpty, ready, (holds.threaded.ring .ready).next_head, ready] at taken
      simpa [after] using taken.symm
    rw [removed]
    exact joined_unlink_self
  refine ⟨que', taken, self.1, fun e => e = .node x ∨ e ∈ cycle ScanList.free (lists .free),
    ?_, .inl rfl⟩
  have free := holds'.threaded.ring .free
  rw [Function.update_of_ne (by simp)] at free
  refine ⟨by simpa using holds'.threaded.ring .ready, ?_, ?_, .inr (by simp [cycle])⟩
  · intro e inside
    cases inside with
    | inl same =>
        subst same
        rw [self.1, self.2]
        exact ⟨.inl rfl, .inl rfl⟩
    | inr member => exact ⟨.inr (free.closed e member).1, .inr (free.closed e member).2⟩
  · intro e member inside
    rw [mem_cycle] at member inside
    rcases inside with rfl | rfl | ⟨i, inFree, rfl⟩
    · simp [alone] at member
    · simp at member
    · simp only [reduceCtorEq, Entry.node.injEq, exists_eq_right', false_or] at member
      exact holds.threaded.apart .free .ready (by simp) inFree
        (ready ▸ List.mem_cons_of_mem _ member)

theorem flush_never {lists : ScanList → List Nat} (holds : Holds s.que lists)
    (lock : s.sema ≠ 0) (some : lists .ready ≠ []) (fuel : Nat) :
    wlanMgmtScanQueNodeFlush overlay fuel s = none := by
  obtain ⟨x, rest, ready⟩ := List.exists_cons_of_ne_nil some
  obtain ⟨que, taken, self, part, astray, inside⟩ := Astray.start holds ready
  unfold wlanMgmtScanQueNodeFlush
  rw [holds.isEmpty, taken]
  simp only [ready, reduceCtorEq, decide_false, Bool.false_eq_true, if_false, lock, self]
  rw [astray.loop inside inside fuel]
  rfl

end Loop

/-- Two nodes, one of them in the ready queue, and no connection. -/
def oneReady : ScanQue :=
  { wlanMgmtScanQueInit 2 10 with
    que := wfEnqueTail (wfEnqueHead wfQueInit (.node 0) .free) (.node 1) .ready }

def oneReadyLists : ScanList → List Nat
  | .free => [0]
  | .ready => [1]

theorem holds_oneReady : Holds oneReady.que oneReadyLists := by
  have first : Holds (wfEnqueHead wfQueInit (.node 0) ScanList.free)
      (Function.update (fun _ => []) .free [0]) :=
    holds_wfQueInit.enqueHead (by simp)
  have second := first.enqueTail (n := 1) (h := .ready) (by
    intro k
    cases k with
    | free => simp
    | ready => simp)
  have lists : Function.update (Function.update (fun _ => []) .free [0]) .ready
      (Function.update (fun _ => []) ScanList.free [0] .ready ++ [1]) = oneReadyLists := by
    funext k
    cases k with
    | free => rfl
    | ready => rfl
  rw [lists] at second
  exact second

theorem flush_correct_iff (overlay : ScanList → Queues ScanList Nat → MacAddr)
    {s : ScanQue} {lists : ScanList → List Nat} (holds : Holds s.que lists)
    (lock : s.sema ≠ 0) :
    (∃ fuel s', wlanMgmtScanQueNodeFlush overlay fuel s = some s' ∧
      Flushed s s' lists) ↔ lists .ready = [] := by
  constructor
  · rintro ⟨fuel, s', returned, -⟩
    by_contra some
    rw [flush_never holds lock some fuel] at returned
    cases returned
  · intro empty
    refine ⟨0, s, ?_, lists, holds, by rw [empty]; rfl, by rw [empty]; simp⟩
    unfold wlanMgmtScanQueNodeFlush
    rw [holds.isEmpty, empty]
    rfl

theorem flush_correct_iff_oneReady :
    Holds oneReady.que oneReadyLists ∧ oneReady.sema ≠ 0 ∧
      ((∃ fuel s', wlanMgmtScanQueNodeFlush (fun _ _ => Vector.replicate 6 0) fuel
        oneReady = some s' ∧ Flushed oneReady s' oneReadyLists) ↔
          oneReadyLists .ready = []) :=
  ⟨holds_oneReady, by decide, flush_correct_iff _ holds_oneReady (by decide)⟩

theorem flush_oneReady_never_returns :
    ¬ ∃ fuel s', wlanMgmtScanQueNodeFlush (fun _ _ => Vector.replicate 6 0) fuel
      oneReady = some s' ∧ Flushed oneReady s' oneReadyLists := by
  rintro ⟨fuel, s', returned, -⟩
  rw [flush_never holds_oneReady (by decide) (by decide) fuel] at returned
  cases returned

end Smartchip.Scan
