import Smartchip.Scan.Queue

/-!
# What the queue of scan results always is

Every BSS is in the ready queue once, the stronger ones first, and no node is
lost.  The search loop carries the two searches over the part of the queue that
it has passed.
-/

namespace Smartchip.Scan

open Smartchip.Foundation Smartchip.Frame Smartchip.Utility

/-! ## Ranked queues -/

structure Ranked (node : Nat → ScanNode) (ready : List Nat) : Prop where
  distinct : (ready.map fun i => (node i).bssid).Nodup
  sorted : ready.Pairwise fun i j =>
    (node j).signalStrength ≤ (node i).signalStrength

def sameBss (node : Nat → ScanNode) (pnewNode i : Nat) : Bool :=
  decide ((node pnewNode).bssid = (node i).bssid)

def weaker (node : Nat → ScanNode) (pnewNode i : Nat) : Bool :=
  decide ((node i).signalStrength < (node pnewNode).signalStrength)

section Rank

variable {node other : Nat → ScanNode} {ready front back : List Nat} {i pnewNode : Nat}

theorem Ranked.congr (ranked : Ranked node ready)
    (same : ∀ i ∈ ready, (other i).bssid = (node i).bssid ∧
      (other i).signalStrength = (node i).signalStrength) : Ranked other ready := by
  constructor
  · have bssids : (ready.map fun i => (other i).bssid) =
        ready.map fun i => (node i).bssid :=
      List.map_congr_left fun i member => (same i member).1
    rw [bssids]
    exact ranked.distinct
  · refine ranked.sorted.imp_of_mem ?_
    intro i j first second order
    rw [(same i first).2, (same j second).2]
    exact order

theorem Ranked.sublist (ranked : Ranked node ready) (sub : front.Sublist ready) :
    Ranked node front :=
  ⟨ranked.distinct.sublist (sub.map _), ranked.sorted.sublist sub⟩

/-- The new node goes in front of the first one that is weaker. -/
theorem sorted_insert
    (sorted : (front ++ back).Pairwise fun i j =>
      (node j).signalStrength ≤ (node i).signalStrength)
    (stronger : ∀ i ∈ front, weaker node pnewNode i = false)
    (first : ∀ i ∈ back.head?, weaker node pnewNode i = true) :
    (front ++ pnewNode :: back).Pairwise fun i j =>
      (node j).signalStrength ≤ (node i).signalStrength := by
  obtain ⟨hfront, hback, across⟩ := List.pairwise_append.mp sorted
  have ahead : ∀ i ∈ front,
      (node pnewNode).signalStrength ≤ (node i).signalStrength := by
    intro i member
    have weak := stronger i member
    rw [weaker, decide_eq_false_iff_not] at weak
    exact UInt8.not_lt.mp weak
  have behind : ∀ j ∈ back,
      (node j).signalStrength ≤ (node pnewNode).signalStrength := by
    cases back with
    | nil => simp
    | cons p rest =>
        have weak := first p rfl
        rw [weaker, decide_eq_true_iff] at weak
        have lower := UInt8.le_of_lt weak
        intro j member
        cases List.mem_cons.mp member with
        | inl same => exact same ▸ lower
        | inr inside =>
            exact UInt8.le_trans ((List.pairwise_cons.mp hback).1 j inside) lower
  refine List.pairwise_append.mpr ⟨hfront, List.pairwise_cons.mpr ⟨behind, hback⟩, ?_⟩
  intro i member j inside
  cases List.mem_cons.mp inside with
  | inl same => exact same ▸ ahead i member
  | inr inside => exact across i member j inside

/-- One node leaves for the new one: that of the same BSS, or any other one
when the BSS is new. -/
theorem distinct_replace {us vs : List Nat} (ranked : Ranked node (front ++ back))
    (replaced : front ++ pnewNode :: back = us ++ i :: vs) (ne : i ≠ pnewNode)
    (single : ∀ j ∈ front ++ back, j ≠ i → sameBss node pnewNode j = false) :
    ((us ++ vs).map fun i => (node i).bssid).Nodup := by
  have inside : i ∈ front ++ back := by
    have member : i ∈ front ++ pnewNode :: back := by
      rw [replaced]
      simp
    simp only [List.mem_append, List.mem_cons] at member ⊢
    tauto
  have moved : (i :: (us ++ vs)).Perm (i :: pnewNode :: (front ++ back).erase i) :=
    calc (i :: (us ++ vs)).Perm (us ++ i :: vs) := List.perm_middle.symm
      _ = front ++ pnewNode :: back := replaced.symm
      _ |>.Perm (pnewNode :: (front ++ back)) := List.perm_middle
      _ |>.Perm (pnewNode :: i :: (front ++ back).erase i) :=
        (List.perm_cons_erase inside).cons _
      _ |>.Perm (i :: pnewNode :: (front ++ back).erase i) := List.Perm.swap _ _ _
  have others := List.perm_cons_erase inside
  have nodup : (front ++ back).Nodup := List.Nodup.of_map _ ranked.distinct
  rw [(moved.cons_inv.map _).nodup_iff, List.map_cons, List.nodup_cons]
  have rest := ((others.map fun i => (node i).bssid).nodup_iff.mp ranked.distinct)
  rw [List.map_cons, List.nodup_cons] at rest
  refine ⟨?_, rest.2⟩
  intro member
  obtain ⟨j, erased, same⟩ := List.mem_map.mp member
  have member : j ≠ i ∧ j ∈ front ++ back := (nodup.mem_erase_iff).mp erased
  have differ := single j member.2 member.1
  rw [sameBss, decide_eq_false_iff_not] at differ
  exact differ same.symm

theorem distinct_insert (ranked : Ranked node (front ++ back))
    (absent : ∀ j ∈ front ++ back, sameBss node pnewNode j = false) :
    ((front ++ pnewNode :: back).map fun i => (node i).bssid).Nodup := by
  rw [(List.perm_middle.map _).nodup_iff, List.map_cons, List.nodup_cons]
  refine ⟨?_, ranked.distinct⟩
  intro member
  obtain ⟨j, inside, same⟩ := List.mem_map.mp member
  have differ := absent j inside
  rw [sameBss, decide_eq_false_iff_not] at differ
  exact differ same.symm

end Rank

/-! ## The invariant -/

/-- The node in the hands of the thread. -/
def ScanQue.held (s : ScanQue) : List Nat :=
  match s.phase with
  | .searching pnewNode _ _ _ _ => [pnewNode]
  | _ => []

def PhaseOk (s : ScanQue) (ready : List Nat) : Prop :=
  match s.phase with
  | .idle => True
  | .searching pnewNode _ pos pswapNode pinstPos =>
      ∃ passed rest, ready = passed ++ rest ∧ pos = after .ready rest ∧
        pswapNode = passed.find? (sameBss s.node pnewNode) ∧
        pinstPos = passed.find? (weaker s.node pnewNode)
  | .refreshing _ pos n =>
      ∃ passed rest, ready = passed ++ rest ∧ pos = after .ready rest ∧
        ∀ i later, rest = i :: later → n = after .ready later

structure Tracks (scanQueDeep : Nat) (s : ScanQue) (lists : ScanList → List Nat) :
    Prop where
  holds : Holds s.que lists
  ranked : Ranked s.node (lists .ready)
  whole : (lists .free ++ (lists .ready ++ s.held)).Perm (List.range scanQueDeep)
  phase : PhaseOk s (lists .ready)

/-- The push that is due takes a node of another BSS out of the ready queue. -/
def Evicts (s : ScanQue) (i : Nat) : Prop :=
  ∃ pnewNode msg inst, s.phase = .searching pnewNode msg (.head .ready) none inst ∧
    msg.phySta ≠ none ∧ wfQueIsEmpty s.que .free = true ∧
    wfQueTail s.que .ready = some (.node i) ∧ s.sema ≠ 0 ∧
    isBssOnlink s (s.node i).bssid = false

/-- The turn of the refresh that is due finds a node on one of its channels. -/
def Covers (s : ScanQue) (chMap : List UInt8) (i : Nat) : Prop :=
  (∃ n, s.phase = .refreshing chMap (.node i) n) ∧ (s.node i).channel ∈ chMap

def agedTtl (ttl : UInt32) : UInt32 := if ttl ≠ 0 then ttl - 1 else ttl

/-- What a step does to the ready queue and its nodes. -/
inductive Effect (s : ScanQue) (ready : List Nat) (node' : Nat → ScanNode)
    (ready' : List Nat) : Input → Prop
  | quiet {input : Input} (same : ready' = ready)
      (node : ∀ i ∈ ready, node' i = s.node i)
      (calm : input = .work → ∀ chMap i, ¬ Covers s chMap i) :
      Effect s ready node' ready' input
  | visited (i : Nat) (same : ready' = ready)
      (node : node' = (s.setTtl i ((s.node i).ttl &&& 0xFF)).node) :
      Effect s ready node' ready' (.readVisit i)
  | held (i : Nat) (same : ready' = ready)
      (hold : (s.node i).ttl &&& ttlPrbHoldTimesMsk ≠ 0)
      (node : node' = (s.setTtl i ((s.node i).ttl - 0x01000000)).node)
      (calm : ∀ chMap i, ¬ Covers s chMap i) :
      Effect s ready node' ready' .work
  | pushed (pnewNode : Nat) (pswapNode : Option Nat) (new : s.held = [pnewNode])
      (members : ∀ j, j ∈ ready' ↔
        j = pnewNode ∨ j ∈ ready ∧ pswapNode ≠ some j)
      (out : ∀ i, pswapNode = some i →
        (s.node i).bssid = (s.node pnewNode).bssid ∨ Evicts s i)
      (node : node' =
        (s.setTtl pnewNode (s.scanQueNodeTtl.toUInt32 ||| prbHold)).node) :
      Effect s ready node' ready' .work
  | aged (chMap : List UInt8) (i : Nat) (covers : Covers s chMap i) (inside : i ∈ ready)
      (stays : agedTtl (s.node i).ttl ≠ 0 ∨ s.sema = 0) (same : ready' = ready)
      (node : node' = (s.setTtl i (agedTtl (s.node i).ttl)).node) :
      Effect s ready node' ready' .work
  | retired (chMap : List UInt8) (i : Nat) (covers : Covers s chMap i) (inside : i ∈ ready)
      (expired : agedTtl (s.node i).ttl = 0) (lock : s.sema ≠ 0)
      (members : ∀ j, j ∈ ready' ↔ j ∈ ready ∧ j ≠ i)
      (node : node' = (s.setTtl i (agedTtl (s.node i).ttl)).node) :
      Effect s ready node' ready' .work

/-- The step returns, and its effect is one of these. -/
def Steps (deep : Nat) (s : ScanQue) (lists : ScanList → List Nat) (input : Input)
    (next : Option ScanQue) : Prop :=
  ∃ s', next = some s' ∧ ∃ lists', Tracks deep s' lists' ∧
    Effect s (lists .ready) s'.node (lists' .ready) input

section Moves

variable {deep : Nat} {s s' : ScanQue} {lists : ScanList → List Nat} {i pnewNode : Nat}

theorem nodup_of_whole {free ready held : List Nat}
    (whole : (free ++ (ready ++ held)).Perm (List.range deep)) :
    free.Nodup ∧ ready.Nodup ∧ ready.Disjoint held ∧ free.Disjoint ready ∧
      free.Disjoint held := by
  have nodup := whole.nodup_iff.mpr List.nodup_range
  obtain ⟨hfree, hrest, apart⟩ := List.nodup_append'.mp nodup
  obtain ⟨hready, -, hheld⟩ := List.nodup_append'.mp hrest
  exact ⟨hfree, hready, hheld,
    fun i first second => apart first (List.mem_append_left _ second),
    fun i first second => apart first (List.mem_append_right _ second)⟩

theorem Tracks.fresh (tracks : Tracks deep s lists) (held : s.held = [pnewNode]) :
    ∀ k, pnewNode ∉ lists k := by
  obtain ⟨-, -, ready, -, free⟩ := nodup_of_whole tracks.whole
  rw [held] at ready free
  intro k member
  cases k with
  | free => exact free member (by simp)
  | ready => exact ready member (by simp)

@[simp] theorem setTtl_bssid (ttl : UInt32) (j : Nat) :
    ((s.setTtl i ttl).node j).bssid = (s.node j).bssid := by
  unfold ScanQue.setTtl ScanQue.setNode
  by_cases same : j = i
  · simp [same]
  · simp [same]

@[simp] theorem setTtl_signalStrength (ttl : UInt32) (j : Nat) :
    ((s.setTtl i ttl).node j).signalStrength = (s.node j).signalStrength := by
  unfold ScanQue.setTtl ScanQue.setNode
  by_cases same : j = i
  · simp [same]
  · simp [same]

/-- The times to live do not matter. -/
theorem Tracks.setTtl (tracks : Tracks deep s lists) (i : Nat) (ttl : UInt32) :
    Tracks deep (s.setTtl i ttl) lists := by
  refine ⟨tracks.holds, tracks.ranked.congr (by simp), tracks.whole, ?_⟩
  have phase := tracks.phase
  unfold PhaseOk at phase ⊢
  have same : sameBss (s.setTtl i ttl).node = sameBss s.node := by
    funext k j
    simp [sameBss]
  have weak : weaker (s.setTtl i ttl).node = weaker s.node := by
    funext k j
    simp [weaker]
  rw [same, weak]
  exact phase

/-- Neither does anything outside the queues, the nodes and the thread. -/
theorem Tracks.same (tracks : Tracks deep s lists) (que : s'.que = s.que)
    (node : s'.node = s.node) (phase : s'.phase = s.phase) : Tracks deep s' lists := by
  refine ⟨que ▸ tracks.holds, node ▸ tracks.ranked, ?_, ?_⟩
  · have held : s'.held = s.held := by
      unfold ScanQue.held
      rw [phase]
    rw [held]
    exact tracks.whole
  · have ok := tracks.phase
    unfold PhaseOk at ok ⊢
    rw [phase, node]
    exact ok

theorem Tracks.pullBack (tracks : Tracks deep s lists) (held : s.held = [pnewNode]) :
    ∃ lists', Tracks deep (pullBack s pnewNode) lists' ∧
      lists' .ready = lists .ready := by
  refine ⟨_, ⟨tracks.holds.enqueHead (tracks.fresh held), ?_, ?_, trivial⟩, rfl⟩
  · exact tracks.ranked
  · have whole := tracks.whole
    rw [held] at whole
    refine List.Perm.trans ?_ whole
    change ((pnewNode :: lists .free) ++ (lists .ready ++ [])).Perm _
    rw [List.append_nil, ← List.append_assoc]
    exact (List.perm_append_singleton _ _).symm

/-- A node leaves the ready queue for the free queue. -/
theorem Holds.retire {que : Queues ScanList Nat} {before after : List Nat}
    (holds : Holds que lists) (split : lists .ready = before ++ i :: after) :
    ∃ lists', Holds (wfEnqueTail (wfDeque que (.node i) .ready).2 (.node i) .free)
        lists' ∧
      lists' .ready = before ++ after ∧ lists' .free = lists .free ++ [i] := by
  have ring := holds.threaded.ring .ready
  have absent : i ∉ before ++ after := by
    rw [split] at ring
    exact (List.nodup_cons.mp (List.nodup_middle.mp ring.nodup)).1
  have elsewhere : i ∉ lists .free := by
    intro member
    exact holds.threaded.apart .free .ready (by simp) member (split ▸ by simp)
  refine ⟨_, (holds.deque split).enqueTail ?_, ?_, ?_⟩
  · intro k
    cases k with
    | free => simpa using elsewhere
    | ready => simpa using absent
  · simp
  · simp

end Moves

/-! ## The push -/

/-- The node that is replaced, if any: no other one is of the new node's BSS. -/
def Replaces (node : Nat → ScanNode) (ready : List Nat) (pnewNode : Nat) :
    Option Nat → Prop
  | none => ∀ j ∈ ready, sameBss node pnewNode j = false
  | some i => i ∈ ready ∧ ∀ j ∈ ready, j ≠ i → sameBss node pnewNode j = false

theorem find?_split (test : Nat → Bool) (ready : List Nat) :
    ∃ front back, ready = front ++ back ∧ ready.find? test = back.head? ∧
      (∀ i ∈ front, test i = false) ∧ ∀ i ∈ back.head?, test i = true := by
  cases found : ready.find? test with
  | none =>
      refine ⟨ready, [], by simp, rfl, ?_, by simp⟩
      simpa using List.find?_eq_none.mp found
  | some p =>
      obtain ⟨hit, front, back, split, missed⟩ :=
        List.find?_eq_some_iff_append.mp found
      refine ⟨front, p :: back, split, rfl, ?_, ?_⟩
      · simpa using missed
      · simpa using hit

section Push

variable {deep : Nat} {s s' : ScanQue} {lists : ScanList → List Nat}
  {pnewNode : Nat} {pswapNode pinstPos : Option Nat} {msg : RxFrmMsg}

theorem holds_insert {que : Queues ScanList Nat} {front back : List Nat}
    (holds : Holds que lists) (fresh : ∀ k, pnewNode ∉ lists k)
    (split : lists .ready = front ++ back) :
    Holds (match back.head? with
      | some pos => wfEnquePrev que (.node pnewNode) (.node pos) .ready
      | none => wfEnqueTail que (.node pnewNode) .ready)
      (Function.update lists .ready (front ++ pnewNode :: back)) := by
  cases back with
  | nil =>
      have tail := holds.enqueTail (h := .ready) fresh
      rw [split, List.append_nil] at tail
      exact tail
  | cons p back => exact holds.enquePrev split fresh

theorem Tracks.insertNode (tracks : Tracks deep s lists)
    (held : s.held = [pnewNode]) (lock : s.sema ≠ 0)
    (inst : pinstPos = (lists .ready).find? (weaker s.node pnewNode))
    (replaces : Replaces s.node (lists .ready) pnewNode pswapNode) :
    ∃ lists', Tracks deep (insertNode s pnewNode pswapNode pinstPos) lists' ∧
      ∀ j, j ∈ lists' .ready ↔ j = pnewNode ∨ j ∈ lists .ready ∧ pswapNode ≠ some j := by
  unfold Scan.insertNode
  rw [if_neg lock]
  obtain ⟨front, back, split, found, stronger, first⟩ :=
    find?_split (weaker s.node pnewNode) (lists .ready)
  have ranked := tracks.ranked
  have whole := tracks.whole
  have fresh := tracks.fresh held
  have sorted := sorted_insert (split ▸ ranked.sorted) stronger first
  have inserted := holds_insert tracks.holds fresh split
  rw [split] at ranked replaces
  rw [held, split] at whole
  rw [inst, found]
  cases pswapNode with
  | none =>
      refine ⟨_, ⟨inserted, ?_, ?_, trivial⟩, ?_⟩
      · have distinct := distinct_insert ranked replaces
        simpa using Ranked.congr ⟨distinct, sorted⟩ (by simp)
      · refine List.Perm.trans ?_ whole
        change (lists .free ++ (_ ++ [])).Perm _
        rw [Function.update_self, List.append_nil]
        exact (List.perm_middle.trans (List.perm_append_singleton _ _).symm).append_left _
      · intro j
        rw [Function.update_self, split, List.perm_middle.mem_iff, List.mem_cons]
        simp
  | some i =>
      have ne : i ≠ pnewNode := by
        rintro rfl
        exact fresh .ready (split ▸ replaces.1)
      have member : i ∈ front ++ pnewNode :: back := by
        have inside := replaces.1
        simp only [List.mem_append, List.mem_cons] at inside ⊢
        tauto
      obtain ⟨us, vs, parts⟩ := List.append_of_mem member
      obtain ⟨lists', holds', hready, hfree⟩ :=
        Holds.retire inserted ((Function.update_self _ _ _).trans parts)
      refine ⟨lists', ⟨holds', ?_, ?_, trivial⟩, ?_⟩
      · rw [hready]
        have distinct := distinct_replace ranked parts ne replaces.2
        have rest := sorted.sublist (parts ▸ (List.sublist_cons_self i vs).append_left us)
        exact Ranked.congr ⟨distinct, rest⟩ (by simp)
      · refine List.Perm.trans ?_ whole
        change (lists' .free ++ (lists' .ready ++ [])).Perm _
        rw [hready, hfree, Function.update_of_ne (by simp), List.append_nil]
        calc (lists .free ++ [i] ++ (us ++ vs)).Perm (lists .free ++ (us ++ i :: vs)) := by
              rw [List.append_assoc, List.singleton_append]
              exact List.perm_middle.symm.append_left _
          _ = lists .free ++ (front ++ pnewNode :: back) := by rw [parts]
          _ |>.Perm (lists .free ++ (front ++ back ++ [pnewNode])) :=
            (List.perm_middle.trans (List.perm_append_singleton _ _).symm).append_left _
      · intro j
        have nodup : (us ++ i :: vs).Nodup := by
          rw [← parts, List.nodup_middle, List.nodup_cons]
          exact ⟨split ▸ fresh .ready, List.Nodup.of_map _ ranked.distinct⟩
        have apart := (List.nodup_cons.mp (List.nodup_middle.mp nodup)).1
        have same : j ∈ us ++ i :: vs ↔ j = pnewNode ∨ j ∈ front ++ back := by
          rw [← parts, List.perm_middle.mem_iff, List.mem_cons]
        rw [List.perm_middle.mem_iff, List.mem_cons] at same
        rw [hready, split]
        by_cases hj : j = i
        · subst hj
          simp [apart, ne]
        · simp only [hj, false_or] at same
          simp [same, Ne.symm hj]

theorem replaces_found (found : pswapNode = (lists .ready).find? (sameBss s.node pnewNode))
    (ranked : Ranked s.node (lists .ready)) :
    Replaces s.node (lists .ready) pnewNode pswapNode := by
  cases pswapNode with
  | none => simpa [Replaces] using List.find?_eq_none.mp found.symm
  | some i =>
      refine ⟨List.mem_of_find?_eq_some found.symm, ?_⟩
      have same := List.find?_some found.symm
      intro j member ne
      rw [sameBss, decide_eq_true_iff] at same
      rw [sameBss, decide_eq_false_iff_not, same]
      intro equal
      exact ne (List.inj_on_of_nodup_map ranked.distinct member
        (List.mem_of_find?_eq_some found.symm) equal.symm)

/-- With more than one node in all, the thread's node apart, one is ready when
none is free. -/
theorem Tracks.tail (tracks : Tracks deep s lists) (held : s.held = [pnewNode])
    (several : 1 < deep) (empty : lists .free = []) :
    ∃ front i, lists .ready = front ++ [i] := by
  have size := tracks.whole.length_eq
  rw [held, empty, List.nil_append, List.length_append, List.length_range] at size
  cases List.eq_nil_or_concat (lists .ready) with
  | inl none =>
      rw [none] at size
      simp at size
      omega
  | inr some =>
      obtain ⟨front, i, split⟩ := some
      exact ⟨front, i, by simpa using split⟩

/-- The thread is in its search loop, not at a refresh. -/
theorem calm_of_held (held : s.held = [pnewNode]) (chMap : List UInt8) (i : Nat) :
    ¬ Covers s chMap i := by
  rintro ⟨⟨n, phase⟩, -⟩
  unfold ScanQue.held at held
  rw [phase] at held
  cases held

theorem Tracks.pullBack_steps (tracks : Tracks deep s lists) (held : s.held = [pnewNode]) :
    Steps deep s lists .work (some (Scan.pullBack s pnewNode)) := by
  obtain ⟨lists', tracks', same⟩ := tracks.pullBack held
  exact ⟨_, rfl, lists', tracks', .quiet same (fun _ _ => rfl) fun _ => calm_of_held held⟩

theorem Tracks.insertNode_steps (tracks : Tracks deep s lists) (held : s.held = [pnewNode])
    (inst : pinstPos = (lists .ready).find? (weaker s.node pnewNode))
    (replaces : Replaces s.node (lists .ready) pnewNode pswapNode)
    (out : s.sema ≠ 0 → ∀ i, pswapNode = some i →
      (s.node i).bssid = (s.node pnewNode).bssid ∨ Evicts s i) :
    Steps deep s lists .work (some (Scan.insertNode s pnewNode pswapNode pinstPos)) := by
  by_cases lock : s.sema = 0
  · have refused : Scan.insertNode s pnewNode pswapNode pinstPos =
        Scan.pullBack s pnewNode := if_pos lock
    rw [refused]
    exact tracks.pullBack_steps held
  · obtain ⟨lists', tracks', members⟩ := tracks.insertNode held lock inst replaces
    refine ⟨_, rfl, lists', tracks', .pushed pnewNode pswapNode held members (out lock) ?_⟩
    unfold Scan.insertNode
    rw [if_neg lock]

theorem Tracks.nodePush (tracks : Tracks deep s lists) (several : 1 < deep)
    (held : s.held = [pnewNode])
    (swap : pswapNode = (lists .ready).find? (sameBss s.node pnewNode))
    (inst : pinstPos = (lists .ready).find? (weaker s.node pnewNode))
    (last : pswapNode = none →
      ∃ inst, s.phase = .searching pnewNode msg (.head .ready) none inst) :
    Steps deep s lists .work (nodePush s pnewNode msg pswapNode pinstPos) := by
  have replaces := replaces_found swap tracks.ranked
  unfold Scan.nodePush
  cases pswapNode with
  | some i =>
      dsimp only
      by_cases holds : holdsProbe s msg i = true
      · rw [if_pos holds]
        obtain ⟨lists', tracks', same⟩ :=
          (tracks.setTtl i ((s.node i).ttl - 0x01000000)).pullBack held
        refine ⟨_, rfl, lists', tracks', .held i same ?_ rfl (calm_of_held held)⟩
        unfold holdsProbe at holds
        simpa using (Bool.and_eq_true_iff.mp holds).2
      · rw [if_neg holds]
        split
        · exact tracks.pullBack_steps held
        · refine tracks.insertNode_steps held inst replaces ?_
          rintro - j found
          cases found
          have same := List.find?_some swap.symm
          rw [sameBss, decide_eq_true_iff] at same
          exact .inl same.symm
  | none =>
      dsimp only
      by_cases empty : lists .free = []
      · obtain ⟨front, i, split⟩ := tracks.tail held several empty
        have none : wfQueIsEmpty s.que .free = true := by
          rw [tracks.holds.isEmpty, empty]
          rfl
        have evicts : Replaces s.node (lists .ready) pnewNode (some i) :=
          ⟨split ▸ by simp, fun j member _ => replaces j member⟩
        have final := tracks.holds.tail split
        rw [final, if_pos none]
        by_cases phySta : msg.phySta = Option.none
        · rw [if_pos phySta]
          exact tracks.pullBack_steps held
        · rw [if_neg phySta]
          dsimp only
          by_cases onlink : isBssOnlink s (s.node i).bssid = true
          · rw [if_pos onlink]
            exact tracks.pullBack_steps held
          · rw [if_neg onlink]
            refine tracks.insertNode_steps held inst evicts ?_
            rintro lock j found
            cases found
            obtain ⟨inst', phase⟩ := last rfl
            exact .inr ⟨pnewNode, msg, inst', phase, phySta, none, final, lock,
              Bool.not_eq_true _ ▸ onlink⟩
      · have some : ¬ wfQueIsEmpty s.que .free = true := by
          rw [tracks.holds.isEmpty]
          simpa using empty
        rw [if_neg some]
        exact tracks.insertNode_steps held inst replaces fun _ _ found => nomatch found

end Push

/-! ## One turn of the thread -/

theorem foundAt_find? (test : Nat → Bool) (passed : List Nat) (i : Nat) :
    foundAt (passed.find? test) (test i) i = (passed ++ [i]).find? test := by
  unfold foundAt
  rw [List.find?_append]
  cases passed.find? test with
  | none => cases hit : test i <;> simp [hit]
  | some j => simp

theorem find?_append_some {test : Nat → Bool} {passed : List Nat} (rest : List Nat)
    (found : (passed.find? test).isSome) :
    passed.find? test = (passed ++ rest).find? test := by
  obtain ⟨j, hit⟩ := Option.isSome_iff_exists.mp found
  rw [List.find?_append, hit]
  rfl

section Turn

variable {deep : Nat} {s : ScanQue} {lists : ScanList → List Nat}

theorem Tracks.searchTurn {pnewNode : Nat} {msg : RxFrmMsg} {pos : ScanEntry}
    {pswapNode pinstPos : Option Nat} (tracks : Tracks deep s lists)
    (several : 1 < deep)
    (phase : s.phase = .searching pnewNode msg pos pswapNode pinstPos) :
    Steps deep s lists .work (searchTurn s pnewNode msg pos pswapNode pinstPos) := by
  have held : s.held = [pnewNode] := by
    unfold ScanQue.held
    rw [phase]
  have ok := tracks.phase
  unfold PhaseOk at ok
  simp only [phase] at ok
  obtain ⟨passed, rest, split, rfl, swap, inst⟩ := ok
  cases rest with
  | nil =>
      rw [List.append_nil] at split
      refine tracks.nodePush several held (split ▸ swap) (split ▸ inst) ?_
      rintro rfl
      exact ⟨pinstPos, phase⟩
  | cons i rest =>
      have split' : lists .ready = (passed ++ [i]) ++ rest := by simp [split]
      have swap' := foundAt_find? (sameBss s.node pnewNode) passed i
      have inst' := foundAt_find? (weaker s.node pnewNode) passed i
      rw [← swap] at swap'
      rw [← inst] at inst'
      unfold sameBss at swap'
      unfold weaker at inst'
      simp only [Scan.searchTurn, after]
      rw [swap', inst']
      split
      · rename_i both
        rw [Bool.and_eq_true] at both
        refine tracks.nodePush several held
          (split' ▸ find?_append_some rest both.1) (split' ▸ find?_append_some rest both.2) ?_
        intro none
        rw [none] at both
        simp at both
      · refine ⟨_, rfl, lists, ⟨tracks.holds, tracks.ranked, ?_, ?_⟩,
          .quiet rfl (fun _ _ => rfl) fun _ => calm_of_held held⟩
        · have whole := tracks.whole
          rw [held] at whole
          exact whole
        · have ring := tracks.holds.threaded.ring .ready
          rw [split] at ring
          exact ⟨passed ++ [i], rest, split', ring.next_node, rfl, rfl⟩

theorem Tracks.rxFrame {elements : List UInt8 → Option UInt8} {msg : RxFrmMsg}
    (tracks : Tracks deep s lists) (idle : s.phase = .idle) :
    Steps deep s lists (.frame msg) (rxFrame elements s msg) := by
  have held : s.held = [] := by
    unfold ScanQue.held
    rw [idle]
  have whole := tracks.whole
  rw [held, List.append_nil] at whole
  unfold Scan.rxFrame
  cases free : lists .free with
  | nil =>
      rw [tracks.holds.dequeHead_nil free]
      exact ⟨s, rfl, lists, tracks, .quiet rfl (fun _ _ => rfl) nofun⟩
  | cons pnewNode rest =>
      obtain ⟨que, taken, holds⟩ := tracks.holds.dequeHead_cons free
      rw [taken]
      rw [free] at whole
      have notReady : ∀ i ∈ lists .ready, i ≠ pnewNode := by
        rintro i member rfl
        exact tracks.holds.threaded.apart .free .ready (by simp) (free ▸ by simp) member
      -- the node in the hands of the thread, with whatever was parsed into it
      have parsed : ∀ node, Tracks deep { s with
          que, node := Function.update s.node pnewNode node
          phase := .searching pnewNode msg (que.links.next (.head .ready)) none none }
          (Function.update lists .free rest) := by
        intro node
        refine ⟨holds, ?_, ?_, [], lists .ready, rfl, ?_, rfl, rfl⟩
        · refine tracks.ranked.congr fun i member => ?_
          simp [notReady i member]
        · refine List.Perm.trans ?_ whole
          change (Function.update lists .free rest .free ++ (lists .ready ++ [pnewNode])).Perm _
          rw [Function.update_self, ← List.append_assoc]
          exact List.perm_append_singleton _ _
        · exact (holds.threaded.ring .ready).next_head
      have kept : ∀ node, ∀ i ∈ lists .ready,
          Function.update s.node pnewNode node i = s.node i := by
        intro node i member
        exact Function.update_of_ne (notReady i member) _ _
      simp only
      split
      · exact ⟨_, rfl, _, parsed _, .quiet rfl (kept _) nofun⟩
      · obtain ⟨lists', tracks', same⟩ := (parsed _).pullBack rfl
        exact ⟨_, rfl, lists', tracks', .quiet same (kept _) nofun⟩

theorem refreshNode_covers (s : ScanQue) {chMap : List UInt8} {i : Nat}
    (covers : (s.node i).channel ∈ chMap) :
    Scan.refreshNode s chMap i =
      if agedTtl (s.node i).ttl = 0 ∧ s.sema ≠ 0 then
        { s.setTtl i (agedTtl (s.node i).ttl) with
          que := wfEnqueTail (wfDeque s.que (.node i) .ready).2 (.node i) .free }
      else s.setTtl i (agedTtl (s.node i).ttl) := by
  have ttl : ((s.setTtl i (agedTtl (s.node i).ttl)).node i).ttl =
      agedTtl (s.node i).ttl := by
    simp [ScanQue.setTtl, ScanQue.setNode]
  unfold Scan.refreshNode
  rw [if_neg (not_not.mpr covers)]
  exact if_congr (and_congr_left' (Eq.congr_left ttl)) rfl rfl

theorem Tracks.refreshNode {passed rest : List Nat} {i : Nat} {chMap : List UInt8}
    {n : ScanEntry} (tracks : Tracks deep s lists)
    (phase : s.phase = .refreshing chMap (.node i) n)
    (split : lists .ready = passed ++ i :: rest) :
    ∃ lists' passed', Holds (refreshNode s chMap i).que lists' ∧
      Ranked (refreshNode s chMap i).node (lists' .ready) ∧
      (lists' .free ++ lists' .ready).Perm (List.range deep) ∧
      lists' .ready = passed' ++ rest ∧
      Effect s (lists .ready) (refreshNode s chMap i).node (lists' .ready) .work := by
  have whole := tracks.whole
  unfold ScanQue.held at whole
  rw [phase, List.append_nil] at whole
  have stays : lists .ready = (passed ++ [i]) ++ rest := by simp [split]
  have inside : i ∈ lists .ready := split ▸ by simp
  by_cases covers : (s.node i).channel ∈ chMap
  · rw [refreshNode_covers s covers]
    have aged := tracks.setTtl i (agedTtl (s.node i).ttl)
    by_cases out : agedTtl (s.node i).ttl = 0 ∧ s.sema ≠ 0
    · rw [if_pos out]
      obtain ⟨lists', holds, hready, hfree⟩ := Holds.retire aged.holds split
      refine ⟨lists', passed, holds, ?_, ?_, hready,
        .retired chMap i ⟨⟨n, phase⟩, covers⟩ inside out.1 out.2 ?_ rfl⟩
      · rw [hready]
        refine aged.ranked.sublist ?_
        rw [split]
        exact (List.sublist_cons_self i rest).append_left passed
      · refine List.Perm.trans ?_ whole
        rw [hready, hfree, split, List.append_assoc, List.singleton_append]
        exact List.perm_middle.symm.append_left _
      · intro j
        have nodup := (tracks.holds.threaded.ring .ready).nodup
        rw [split] at nodup
        have apart := (List.nodup_cons.mp (List.nodup_middle.mp nodup)).1
        rw [hready, split, List.perm_middle.mem_iff, List.mem_cons]
        by_cases hj : j = i
        · subst hj
          simp [apart]
        · simp [hj]
    · rw [if_neg out]
      have stuck : agedTtl (s.node i).ttl ≠ 0 ∨ s.sema = 0 := by
        rw [not_and_or, not_not] at out
        exact out
      exact ⟨lists, _, aged.holds, aged.ranked, whole, stays,
        .aged chMap i ⟨⟨n, phase⟩, covers⟩ inside stuck rfl rfl⟩
  · have apart : Scan.refreshNode s chMap i = s := if_pos covers
    rw [apart]
    refine ⟨lists, _, tracks.holds, tracks.ranked, whole, stays,
      .quiet rfl (fun _ _ => rfl) ?_⟩
    rintro - other j ⟨⟨m, same⟩, inside⟩
    cases phase.symm.trans same
    exact covers inside

theorem Tracks.refreshTurn {chMap : List UInt8} {pos n : ScanEntry}
    (tracks : Tracks deep s lists) (phase : s.phase = .refreshing chMap pos n) :
    Steps deep s lists .work (refreshTurn s chMap pos n) := by
  have whole := tracks.whole
  unfold ScanQue.held at whole
  rw [phase, List.append_nil] at whole
  have ok := tracks.phase
  unfold PhaseOk at ok
  simp only [phase] at ok
  obtain ⟨passed, rest, split, rfl, later⟩ := ok
  cases rest with
  | nil =>
      refine ⟨_, rfl, lists, ⟨tracks.holds, tracks.ranked, ?_, trivial⟩,
        .quiet rfl (fun _ _ => rfl) ?_⟩
      · simpa [ScanQue.held] using whole
      · rintro - other i ⟨⟨m, same⟩, -⟩
        cases phase.symm.trans same
  | cons i rest =>
      obtain ⟨lists', passed', holds, ranked, whole', split', effect⟩ :=
        tracks.refreshNode phase split
      refine ⟨_, rfl, lists', ⟨holds, ranked, ?_, passed', rest, split', later i rest rfl, ?_⟩,
        effect⟩
      · simpa [ScanQue.held] using whole'
      · intro j more parts
        subst parts
        have ring := holds.threaded.ring .ready
        rw [split'] at ring
        rw [later i (j :: more) rfl]
        exact ring.next_node

theorem Tracks.refreshStart {chMap : List UInt8} (tracks : Tracks deep s lists)
    (idle : s.phase = .idle) : Tracks deep (refreshStart s chMap) lists := by
  have whole := tracks.whole
  have ring := tracks.holds.threaded.ring .ready
  unfold ScanQue.held at whole
  rw [idle] at whole
  refine ⟨tracks.holds, tracks.ranked, whole, [], lists .ready, rfl, ring.next_head, ?_⟩
  intro i rest split
  rw [ring.next_head, split]
  rw [split, ← List.nil_append (i :: rest)] at ring
  exact ring.next_node

/-- Only the lock, the link or the thread's place changes. -/
theorem Tracks.unmoved {s' : ScanQue} {input : Input}
    (tracks' : Tracks deep s' lists) (node : s'.node = s.node)
    (calm : input = .work → ∀ chMap i, ¬ Covers s chMap i) :
    Steps deep s lists input (some s') :=
  ⟨s', rfl, lists, tracks', .quiet rfl (fun i _ => congrFun node i) calm⟩

end Turn

/-! ## Every step and every run -/

section Run

variable {deep : Nat} {elements : List UInt8 → Option UInt8}

def Invariant (deep : Nat) (s : ScanQue) : Prop := ∃ lists, Tracks deep s lists

theorem Tracks.step {s : ScanQue} {lists : ScanList → List Nat}
    (elements : List UInt8 → Option UInt8) (several : 1 < deep)
    (tracks : Tracks deep s lists) (input : Input) :
    Steps deep s lists input (step elements s input) := by
  unfold Scan.step
  cases input with
  | frame msg =>
      cases phase : s.phase with
      | idle => exact tracks.rxFrame phase
      | searching _ _ _ _ _ => exact tracks.unmoved rfl nofun
      | refreshing _ _ _ => exact tracks.unmoved rfl nofun
  | refresh chMap =>
      cases phase : s.phase with
      | idle => exact Tracks.unmoved (tracks.refreshStart phase) rfl nofun
      | searching _ _ _ _ _ => exact tracks.unmoved rfl nofun
      | refreshing _ _ _ => exact tracks.unmoved rfl nofun
  | work =>
      cases phase : s.phase with
      | idle =>
          refine tracks.unmoved rfl ?_
          rintro - chMap i ⟨⟨n, same⟩, -⟩
          cases phase.symm.trans same
      | searching _ _ _ _ _ => exact tracks.searchTurn several phase
      | refreshing _ _ _ => exact tracks.refreshTurn phase
  | readTry =>
      have node : (readTry s).node = s.node := by
        unfold readTry
        split_ifs <;> rfl
      refine Tracks.unmoved (tracks.same ?_ node ?_) node nofun <;>
        (unfold readTry; split_ifs <;> rfl)
  | readVisit i =>
      unfold readVisit
      dsimp only
      by_cases outside : s.readCnt = 0
      · rw [if_pos outside]
        exact tracks.unmoved rfl nofun
      · rw [if_neg outside]
        exact ⟨_, rfl, lists, tracks.setTtl i _, .visited i rfl rfl⟩
  | readPost =>
      have node : (readPost s).node = s.node := by
        unfold readPost
        split_ifs <;> rfl
      refine Tracks.unmoved (tracks.same ?_ node ?_) node nofun <;>
        (unfold readPost; split_ifs <;> rfl)
  | link connect curBssid =>
      exact Tracks.unmoved (tracks.same rfl rfl rfl) rfl nofun

theorem step_invariant (elements : List UInt8 → Option UInt8) (several : 1 < deep)
    (s : ScanQue) (input : Input)
    (invariant : Invariant deep s) :
    ∃ s', step elements s input = some s' ∧ Invariant deep s' := by
  obtain ⟨lists, tracks⟩ := invariant
  obtain ⟨s', hstep, lists', tracks', -⟩ := tracks.step elements several input
  exact ⟨s', hstep, lists', tracks'⟩

theorem holds_scanQueFree (deep : Nat) :
    ∃ lists, Holds (scanQueFree deep) lists ∧ lists .ready = [] ∧
      lists .free = (List.range deep).reverse := by
  induction deep with
  | zero => exact ⟨fun _ => [], holds_wfQueInit, rfl, rfl⟩
  | succ deep ih =>
      obtain ⟨lists, holds, hready, hfree⟩ := ih
      unfold scanQueFree at holds ⊢
      rw [List.range_succ, List.foldl_append]
      refine ⟨_, holds.enqueHead ?_, ?_, ?_⟩
      · intro k
        cases k with
        | free => simp [hfree]
        | ready => simp [hready]
      · simpa using hready
      · simp [hfree]

theorem invariant_init (deep : Nat) (ttl : UInt8) :
    Invariant deep (wlanMgmtScanQueInit deep ttl) := by
  obtain ⟨lists, holds, hready, hfree⟩ := holds_scanQueFree deep
  refine ⟨lists, holds, ?_, ?_, trivial⟩
  · rw [hready]
    exact ⟨List.nodup_nil, List.Pairwise.nil⟩
  · change (lists .free ++ (lists .ready ++ [])).Perm _
    rw [hready, hfree, List.append_nil, List.append_nil]
    exact List.reverse_perm _

/-- One node for each BSS, in the order of strength, and every node in one place. -/
def Sound (deep : Nat) (s : ScanQue) : Prop :=
  ∃ lists : ScanList → List Nat, Holds s.que lists ∧
    ((lists .ready).map fun i => (s.node i).bssid).Nodup ∧
    ((lists .ready).Pairwise fun i j =>
      (s.node j).signalStrength ≤ (s.node i).signalStrength) ∧
    (lists .free ++ (lists .ready ++ s.held)).Perm (List.range deep)

theorem throughout_of_invariant {deep : Nat} (several : 1 < deep) {s : ScanQue}
    (invariant : Invariant deep s) (inputs : List Input) :
    Throughout (step elements) (Sound deep) s inputs := by
  have sound : ∀ s, Invariant deep s → Sound deep s := by
    rintro s ⟨lists, tracks⟩
    exact ⟨lists, tracks.holds, tracks.ranked.distinct, tracks.ranked.sorted, tracks.whole⟩
  exact throughout_of_kept (Invariant deep) sound (step_invariant elements several)
    invariant inputs

end Run

theorem scan_queue_sound (elements : List UInt8 → Option UInt8) {scanQueDeep : Nat}
    (several : 1 < scanQueDeep) (scanQueNodeTtl : UInt8) (inputs : List Input) :
    Throughout (step elements) (Sound scanQueDeep)
      (wlanMgmtScanQueInit scanQueDeep scanQueNodeTtl) inputs :=
  throughout_of_invariant several (invariant_init scanQueDeep scanQueNodeTtl) inputs

/-- The depth and the time to live of every configuration in `local_config.c`. -/
theorem scan_queue_sound_configured :
    1 < 64 ∧ Throughout (step fun _ => some 6) (Sound 64) (wlanMgmtScanQueInit 64 10)
      [.frame ⟨some 40, .beacon, Vector.replicate 6 2, []⟩, .work, .readTry,
        .frame ⟨none, .probeResp, Vector.replicate 6 4, []⟩, .work, .work] :=
  ⟨by decide, scan_queue_sound (fun _ => some 6) (by decide) 10 _⟩

end Smartchip.Scan
