import Smartchip.Scan.Association

/-!
# The age of scan results

The refresh counts the word `ttl` down, which holds the time to live below the count
of the beacons that a probe response still holds off.  The age of a node counts
beside it the refreshes that the node has been through.
-/

namespace Smartchip.Scan

open Smartchip.Foundation Smartchip.Frame Smartchip.Utility

structure Aged where
  handler : Handler
  age : Nat → Nat

/-- The node that is refreshed on its channel with the write lock free. -/
def refreshed (h : Handler) (msg : Message) : Option Nat :=
  match h.flushing, msg, h.scan.phase with
  | none, .scan .work, .refreshing chMap (.node i) _ =>
      if (h.scan.node i).channel ∈ chMap ∧ h.scan.sema ≠ 0 then some i else none
  | _, _, _ => none

/-- A node starts at age zero when it leaves the hands of the thread. -/
def nextAge (h : Handler) (msg : Message) (age : Nat → Nat) (i : Nat) : Nat :=
  if i ∈ h.scan.held then 0
  else if refreshed h msg = some i then age i + 1
  else age i

def agedStep (elements : List UInt8 → Option UInt8)
    (overlay : ScanList → Queues ScanList Nat → MacAddr) (a : Aged) (msg : Message) :
    Option Aged :=
  (handle elements overlay a.handler msg).map fun handler =>
    ⟨handler, nextAge a.handler msg a.age⟩

def agedInit (scanQueDeep : Nat) (scanQueNodeTtl : UInt8) : Aged :=
  ⟨handlerInit scanQueDeep scanQueNodeTtl, fun _ => 0⟩

/-- A node that stays is younger than its time to live, and one that leaves is replaced
by one of its BSS or was refreshed as often as its time to live says. -/
def AgesLawfully (elements : List UInt8 → Option UInt8)
    (overlay : ScanList → Queues ScanList Nat → MacAddr) (a : Aged) (msg : Message) :
    Prop :=
  ∃ a' ready ready', agedStep elements overlay a msg = some a' ∧
    IsReady a.handler.scan ready ∧ IsReady a'.handler.scan ready' ∧ ∀ i ∈ ready,
      (i ∈ ready' → a'.age i < a.handler.scan.scanQueNodeTtl.toNat) ∧
      (i ∉ ready' → BssReady a'.handler.scan (a.handler.scan.node i).bssid ∨
        refreshed a.handler msg = some i ∧
          a.age i + 1 = a.handler.scan.scanQueNodeTtl.toNat)

/-! ## The two counters of a word -/

def timeLeft (ttl : UInt32) : Nat := ttl.toNat % 2 ^ 24

def holdTimes (ttl : UInt32) : Nat := ttl.toNat / 2 ^ 24

/-- The executable form of the condition below, for a thread that is not flushing. -/
def countsApart (h : Handler) : Message → Bool
  | .flush => decide (h.scan.que.links.next (.head .ready) = .head .ready)
  | .scan .work =>
      h.flushing.isNone && match h.scan.phase with
      | .idle => true
      | .searching _ _ _ _ _ => !wfQueIsEmpty h.scan.que .free
      | .refreshing _ (.node i) _ =>
          decide (h.scan.sema ≠ 0 ∨ timeLeft (h.scan.node i).ttl ≤ 1) &&
            decide (timeLeft (h.scan.node i).ttl ≤ 1 → holdTimes (h.scan.node i).ttl = 0)
      | .refreshing _ (.head _) _ => true
  | .scan _ => true

/-- What keeps the two counters apart: the last refresh finds the hold count cleared, and
only the last one may find the lock taken. -/
structure CountsApart (h : Handler) (msg : Message) : Prop where
  positive : h.scan.scanQueNodeTtl ≠ 0
  noFlush : Takes h msg → h.scan.que.links.next (.head .ready) = .head .ready
  noEviction : msg = .scan .work → ∀ i, ¬ Evicts h.scan i
  refresh : msg = .scan .work → ∀ chMap i, Covers h.scan chMap i →
    (h.scan.sema ≠ 0 ∨ timeLeft (h.scan.node i).ttl ≤ 1) ∧
    (timeLeft (h.scan.node i).ttl ≤ 1 → holdTimes (h.scan.node i).ttl = 0)

theorem countsApart_of_check {h : Handler} {msg : Message}
    (positive : h.scan.scanQueNodeTtl ≠ 0) (check : countsApart h msg = true) :
    CountsApart h msg := by
  refine ⟨positive, ?_, ?_, ?_⟩
  · rintro (⟨rfl, -⟩ | ⟨rfl, busy⟩)
    · exact of_decide_eq_true check
    · simp only [countsApart, Bool.and_eq_true, Option.isNone_iff_eq_none] at check
      exact absurd check.1 busy
  · rintro rfl i ⟨pnewNode, frame, inst, phase, -, full, -⟩
    simp [countsApart, phase, full] at check
  · rintro rfl chMap i ⟨⟨n, phase⟩, -⟩
    simp only [countsApart, phase, Bool.and_eq_true] at check
    exact ⟨of_decide_eq_true check.2.1, of_decide_eq_true check.2.2⟩

/-- The word of a node at an age: what is left is the rest of `limit`, and after the
last count the word is zero until the lock is free. -/
def InTime (limit : Nat) (ttl : UInt32) (age : Nat) : Prop :=
  timeLeft ttl ≤ 255 ∧
    (1 ≤ timeLeft ttl ∧ timeLeft ttl + age = limit ∨ ttl = 0 ∧ age + 1 = limit)

section Word

variable {limit age : Nat} {ttl : UInt32}

theorem InTime.young (inTime : InTime limit ttl age) : age < limit := by
  obtain ⟨-, ⟨left, total⟩ | ⟨-, total⟩⟩ := inTime
  · omega
  · omega

theorem inTime_new {new : UInt8} (positive : new ≠ 0) :
    InTime new.toNat (new.toUInt32 ||| prbHold) 0 := by
  have bound := new.toNat_lt
  have some : new.toNat ≠ 0 := fun none => positive (UInt8.toNat_inj.mp none)
  have word : (new.toUInt32 ||| prbHold).toNat = 2 ^ 24 * 5 + new.toNat := by
    rw [UInt32.toNat_or, Nat.or_comm, Nat.two_pow_add_eq_or_of_lt (by omega)]
    rfl
  unfold InTime timeLeft
  rw [word]
  omega

theorem InTime.visit (inTime : InTime limit ttl age) : InTime limit (ttl &&& 0xFF) age := by
  have word : (ttl &&& 0xFF).toNat = ttl.toNat % 2 ^ 8 := by
    rw [UInt32.toNat_and]
    exact Nat.and_two_pow_sub_one_eq_mod _ 8
  obtain ⟨small, ⟨left, total⟩ | ⟨rfl, total⟩⟩ := inTime
  · unfold timeLeft at small left total
    have same : ttl.toNat % 2 ^ 8 % 2 ^ 24 = ttl.toNat % 2 ^ 24 := by omega
    unfold InTime timeLeft
    rw [word, same]
    exact ⟨small, .inl ⟨left, total⟩⟩
  · exact ⟨small, .inr ⟨by decide, total⟩⟩

theorem holdTimes_pos (hold : ttl &&& ttlPrbHoldTimesMsk ≠ 0) : 2 ^ 24 ≤ ttl.toNat := by
  by_contra small
  apply hold
  apply UInt32.toNat_inj.mp
  rw [UInt32.toNat_and]
  apply Nat.eq_of_testBit_eq
  intro i
  have mask : ttlPrbHoldTimesMsk.toNat = 255 <<< 24 := rfl
  rw [mask, Nat.testBit_and, Nat.testBit_shiftLeft]
  by_cases high : 24 ≤ i
  · have below : ttl.toNat < 2 ^ i :=
      lt_of_lt_of_le (by omega) (Nat.pow_le_pow_right (by decide) high)
    simp [Nat.testBit_lt_two_pow below]
  · simp [high]

/-- A beacon that is held off costs a count of the upper counter only. -/
theorem InTime.hold (inTime : InTime limit ttl age)
    (hold : ttl &&& ttlPrbHoldTimesMsk ≠ 0) : InTime limit (ttl - 0x01000000) age := by
  have large := holdTimes_pos hold
  have word : (ttl - 0x01000000).toNat = ttl.toNat - 2 ^ 24 :=
    UInt32.toNat_sub_of_le _ _ (UInt32.le_iff_toNat_le.mpr large)
  obtain ⟨small, ⟨left, total⟩ | ⟨rfl, total⟩⟩ := inTime
  · unfold timeLeft at small left total
    unfold InTime timeLeft
    rw [word]
    omega
  · exact absurd rfl hold

/-- One refresh, with the lock free or not. -/
theorem InTime.refresh {lock : Prop} (inTime : InTime limit ttl age)
    (counted : lock ∨ timeLeft ttl ≤ 1) (cleared : timeLeft ttl ≤ 1 → holdTimes ttl = 0) :
    (agedTtl ttl = 0 → lock → age + 1 = limit) ∧
    (agedTtl ttl ≠ 0 ∨ ¬ lock →
      (lock → InTime limit (agedTtl ttl) (age + 1)) ∧
      (¬ lock → InTime limit (agedTtl ttl) age)) := by
  unfold agedTtl
  obtain ⟨small, ⟨left, total⟩ | ⟨rfl, total⟩⟩ := inTime
  · have some : ttl ≠ 0 := by
      rintro rfl
      simp [timeLeft] at left
    rw [if_pos some]
    have one : (1 : UInt32) ≤ ttl := by
      rw [UInt32.le_iff_toNat_le]
      unfold timeLeft at left
      have := Nat.mod_le ttl.toNat (2 ^ 24)
      simp only [UInt32.toNat_one]
      omega
    have word : (ttl - 1).toNat = ttl.toNat - 1 := UInt32.toNat_sub_of_le _ _ one
    by_cases last : timeLeft ttl = 1
    · have clear := cleared (by omega)
      have zero : ttl - 1 = 0 := by
        apply UInt32.toNat_inj.mp
        rw [word]
        unfold timeLeft at last
        unfold holdTimes at clear
        simp only [UInt32.toNat_zero]
        omega
      rw [zero]
      refine ⟨fun _ _ => by omega, ?_⟩
      rintro (nonzero | busy)
      · exact absurd rfl nonzero
      · exact ⟨fun free => absurd free busy, fun _ => ⟨by decide, .inr ⟨rfl, by omega⟩⟩⟩
    · have free : lock := by
        cases counted with
        | inl free => exact free
        | inr few => omega
      have less : timeLeft (ttl - 1) + 1 = timeLeft ttl := by
        unfold timeLeft at left last ⊢
        rw [word]
        omega
      have nonzero : ttl - 1 ≠ 0 := by
        intro zero
        rw [zero] at less
        exact last less.symm
      refine ⟨fun zero => absurd zero nonzero, fun _ => ⟨fun _ => ?_, absurd free⟩⟩
      exact ⟨by omega, .inl ⟨by omega, by omega⟩⟩
  · rw [if_neg (by simp)]
    refine ⟨fun _ _ => total, ?_⟩
    rintro (nonzero | busy)
    · exact absurd rfl nonzero
    · exact ⟨fun free => absurd free busy, fun _ => ⟨by decide, .inr ⟨rfl, total⟩⟩⟩

end Word

/-! ## One step -/

section Step

variable {deep : Nat} {h : Handler} {msg : Message} {age : Nat → Nat}
  {lists : ScanList → List Nat}

theorem refreshed_calm
    (calm : msg = .scan .work → ∀ chMap i, ¬ Covers h.scan chMap i) :
    refreshed h msg = none := by
  unfold refreshed
  split
  · rename_i chMap i n flushing phase
    rw [if_neg]
    rintro ⟨channel, -⟩
    exact calm rfl chMap i ⟨⟨n, phase⟩, channel⟩
  · rfl

theorem refreshed_covers {chMap : List UInt8} {i : Nat} (idle : h.flushing = none)
    (covers : Covers h.scan chMap i) :
    refreshed h (.scan .work) = if h.scan.sema ≠ 0 then some i else none := by
  obtain ⟨⟨n, phase⟩, channel⟩ := covers
  unfold refreshed
  rw [idle, phase]
  simp [channel]

theorem nextAge_ready (tracks : Tracks deep h.scan lists) {i : Nat} (inside : i ∈ lists .ready) :
    nextAge h msg age i = if refreshed h msg = some i then age i + 1 else age i := by
  have notHeld : i ∉ h.scan.held := by
    obtain ⟨-, -, apart, -, -⟩ := nodup_of_whole tracks.whole
    exact apart inside
  unfold nextAge
  rw [if_neg notHeld]

theorem setTtl_ttl (s : ScanQue) (i j : Nat) (ttl : UInt32) :
    ((s.setTtl i ttl).node j).ttl = if j = i then ttl else (s.node j).ttl := by
  unfold ScanQue.setTtl ScanQue.setNode
  by_cases same : j = i
  · simp [same]
  · simp [same]

/-- The ready nodes are in time after a step that changes one of their words. -/
theorem inTime_setTtl {s : ScanQue} {limit i : Nat} {ttl : UInt32} {age' : Nat → Nat}
    {ready : List Nat} (inTime : ∀ j ∈ ready, InTime limit (s.node j).ttl (age j))
    (others : ∀ j ∈ ready, j ≠ i → age' j = age j)
    (here : i ∈ ready → InTime limit ttl (age' i)) :
    ∀ j ∈ ready, InTime limit ((s.setTtl i ttl).node j).ttl (age' j) := by
  intro j member
  rw [setTtl_ttl]
  by_cases same : j = i
  · subst same
    rw [if_pos rfl]
    exact here member
  · rw [if_neg same, others j member same]
    exact inTime j member

theorem nextAge_calm (tracks : Tracks deep h.scan lists) (calm : refreshed h msg = none) :
    ∀ i ∈ lists .ready, nextAge h msg age i = age i := by
  intro i inside
  rw [nextAge_ready tracks inside, calm, if_neg nofun]

/-- A new node starts with its full time, and the others are not refreshed. -/
theorem pushed_inTime {pnewNode : Nat} {pswapNode : Option Nat} {ready' : List Nat}
    (tracks : Tracks deep h.scan lists) (new : h.scan.held = [pnewNode])
    (members : ∀ j, j ∈ ready' ↔
      j = pnewNode ∨ j ∈ lists .ready ∧ pswapNode ≠ some j)
    (positive : h.scan.scanQueNodeTtl ≠ 0)
    (inTime : ∀ i ∈ lists .ready,
      InTime h.scan.scanQueNodeTtl.toNat (h.scan.node i).ttl (age i)) :
    ∀ j ∈ ready', InTime h.scan.scanQueNodeTtl.toNat
      ((h.scan.setTtl pnewNode (h.scan.scanQueNodeTtl.toUInt32 ||| prbHold)).node j).ttl
      (nextAge h (.scan .work) age j) := by
  have none : refreshed h (.scan .work) = none := refreshed_calm fun _ => calm_of_held new
  intro j member
  rw [setTtl_ttl]
  by_cases same : j = pnewNode
  · subst same
    have zero : nextAge h (.scan .work) age j = 0 := by
      unfold nextAge
      rw [new, if_pos (List.mem_singleton.mpr rfl)]
    rw [if_pos rfl, zero]
    exact inTime_new positive
  · obtain ⟨inside, -⟩ := ((members j).mp member).resolve_left same
    rw [if_neg same, nextAge_calm tracks none j inside]
    exact inTime j inside

/-- The node that a refresh covers loses a count, and stays. -/
theorem aged_inTime {chMap : List UInt8} {i : Nat} (idle : h.flushing = none)
    (tracks : Tracks deep h.scan lists) (apart : CountsApart h (.scan .work))
    (covers : Covers h.scan chMap i) (inside : i ∈ lists .ready)
    (remains : agedTtl (h.scan.node i).ttl ≠ 0 ∨ h.scan.sema = 0)
    (inTime : ∀ i ∈ lists .ready,
      InTime h.scan.scanQueNodeTtl.toNat (h.scan.node i).ttl (age i)) :
    ∀ j ∈ lists .ready, InTime h.scan.scanQueNodeTtl.toNat
      ((h.scan.setTtl i (agedTtl (h.scan.node i).ttl)).node j).ttl
      (nextAge h (.scan .work) age j) := by
  have turn := refreshed_covers idle covers
  obtain ⟨counted, cleared⟩ := apart.refresh rfl chMap i covers
  obtain ⟨-, later⟩ := (inTime i inside).refresh counted cleared
  obtain ⟨free, busy⟩ := later (remains.imp_right not_not_intro)
  refine inTime_setTtl inTime (fun j member ne => ?_) fun _ => ?_
  · rw [nextAge_ready tracks member, turn, if_neg]
    split_ifs
    · simpa using Ne.symm ne
    · nofun
  · rw [nextAge_ready tracks inside, turn]
    by_cases lock : h.scan.sema = 0
    · rw [if_neg (not_not_intro lock), if_neg nofun]
      exact busy (not_not_intro lock)
    · rw [if_pos lock, if_pos rfl]
      exact free lock

/-- What a step does to the words of the ready nodes and to the nodes themselves. -/
theorem effect_inTime {input : Input} {ready' : List Nat} {node' : Nat → ScanNode}
    (idle : h.flushing = none) (tracks : Tracks deep h.scan lists)
    (effect : Effect h.scan (lists .ready) node' ready' input)
    (apart : CountsApart h (.scan input))
    (inTime : ∀ i ∈ lists .ready,
      InTime h.scan.scanQueNodeTtl.toNat (h.scan.node i).ttl (age i)) :
    (∀ i ∈ ready', InTime h.scan.scanQueNodeTtl.toNat (node' i).ttl
      (nextAge h (.scan input) age i)) ∧
    ∀ i ∈ lists .ready, i ∉ ready' →
      (∃ j ∈ ready', (node' j).bssid = (h.scan.node i).bssid) ∨
      refreshed h (.scan input) = some i ∧
        age i + 1 = h.scan.scanQueNodeTtl.toNat := by
  have stays (same : ready' = lists .ready) {P : Nat → Prop} :
      ∀ i ∈ lists .ready, i ∉ ready' → P i := by
    intro i inside out
    rw [same] at out
    exact absurd inside out
  cases effect with
  | quiet same node calm =>
      refine ⟨?_, stays same⟩
      have none : refreshed h (.scan input) = none :=
        refreshed_calm fun work => calm (by injection work)
      rw [same]
      intro i inside
      rw [node i inside, nextAge_calm tracks none i inside]
      exact inTime i inside
  | visited i same node =>
      refine ⟨?_, stays same⟩
      have ages := @nextAge_calm deep h (.scan (.readVisit i)) age lists tracks
        (refreshed_calm nofun)
      rw [same, node]
      refine inTime_setTtl inTime (fun j inside _ => ages j inside) fun inside => ?_
      rw [ages i inside]
      exact (inTime i inside).visit
  | held i same hold node calm =>
      refine ⟨?_, stays same⟩
      have ages := @nextAge_calm deep h (.scan .work) age lists tracks
        (refreshed_calm fun _ => calm)
      rw [same, node]
      refine inTime_setTtl inTime (fun j inside _ => ages j inside) fun inside => ?_
      rw [ages i inside]
      exact (inTime i inside).hold hold
  | pushed pnewNode pswapNode new members out node =>
      rw [node]
      refine ⟨pushed_inTime tracks new members apart.positive inTime, ?_⟩
      intro i inside left
      have swapped : pswapNode = some i := by
        by_contra stayed
        exact left ((members i).mpr (.inr ⟨inside, stayed⟩))
      cases out i swapped with
      | inl same =>
          refine .inl ⟨pnewNode, (members _).mpr (.inl rfl), ?_⟩
          rw [setTtl_bssid]
          exact same.symm
      | inr evicts => exact absurd evicts (apart.noEviction rfl i)
  | aged chMap i covers inside remains same node =>
      refine ⟨?_, stays same⟩
      rw [same, node]
      exact aged_inTime idle tracks apart covers inside remains inTime
  | retired chMap i covers inside expired lock members node =>
      have turn := refreshed_covers idle covers
      rw [if_pos lock] at turn
      obtain ⟨counted, cleared⟩ := apart.refresh rfl chMap i covers
      obtain ⟨ends, -⟩ := (inTime i inside).refresh counted cleared
      constructor
      · intro j member
        obtain ⟨stayed, ne⟩ := (members j).mp member
        rw [node, setTtl_ttl, if_neg ne, nextAge_ready tracks stayed, turn, if_neg]
        · exact inTime j stayed
        · simpa using Ne.symm ne
      · intro j stayed left
        have same : j = i := by
          by_contra ne
          exact left ((members j).mpr ⟨stayed, ne⟩)
        subst same
        exact .inr ⟨turn, ends expired lock⟩

/-- No flush is going on, and every ready node is in time. -/
def AgesOk (deep : Nat) (a : Aged) : Prop :=
  a.handler.flushing = none ∧ ∃ lists, Tracks deep a.handler.scan lists ∧
    ∀ i ∈ lists .ready,
      InTime a.handler.scan.scanQueNodeTtl.toNat (a.handler.scan.node i).ttl (a.age i)

/-- A flush of an empty queue does nothing. -/
theorem handle_flush_calm (elements : List UInt8 → Option UInt8)
    (overlay : ScanList → Queues ScanList Nat → MacAddr) (idle : h.flushing = none)
    (tracks : Tracks deep h.scan lists)
    (empty : Takes h .flush → h.scan.que.links.next (.head .ready) = .head .ready) :
    handle elements overlay h .flush = some h := by
  unfold handle
  rw [idle]
  cases phase : h.scan.phase with
  | searching _ _ _ _ _ => rfl
  | refreshing _ _ _ => rfl
  | idle =>
      dsimp only
      rcases flushStart_cases tracks with ⟨same, -⟩ | ⟨x, rest, -, ready, lock, -⟩
      · exact same
      · have first := (tracks.holds.threaded.ring .ready).next_head
        rw [ready, empty (.inl ⟨rfl, idle, phase, lock⟩)] at first
        cases first

theorem agedStep_ok (elements : List UInt8 → Option UInt8)
    (overlay : ScanList → Queues ScanList Nat → MacAddr) (several : 1 < deep) {a : Aged}
    (ok : AgesOk deep a) (apart : CountsApart a.handler msg) :
    AgesLawfully elements overlay a msg ∧
      ∀ a', agedStep elements overlay a msg = some a' → AgesOk deep a' := by
  obtain ⟨idle, lists, tracks, inTime⟩ := ok
  have ring := tracks.holds.threaded.ring .ready
  unfold AgesLawfully agedStep
  cases msg with
  | flush =>
      rw [handle_flush_calm elements overlay idle tracks apart.noFlush]
      have calm : refreshed a.handler .flush = none := refreshed_calm nofun
      have ages : ∀ i ∈ lists .ready, nextAge a.handler .flush a.age i = a.age i := by
        intro i inside
        rw [nextAge_ready tracks inside, calm, if_neg nofun]
      constructor
      · refine ⟨_, lists .ready, lists .ready, rfl, ring, ring, fun i inside => ?_⟩
        refine ⟨fun _ => ?_, fun left => absurd inside left⟩
        change nextAge a.handler .flush a.age i < _
        rw [ages i inside]
        exact (inTime i inside).young
      · rintro a' hstep
        cases hstep
        refine ⟨idle, lists, tracks, fun i inside => ?_⟩
        change InTime _ _ (nextAge a.handler .flush a.age i)
        rw [ages i inside]
        exact inTime i inside
  | scan input =>
      obtain ⟨s', hstep, lists', tracks', effect⟩ := tracks.step elements several input
      obtain ⟨inTime', gone⟩ := effect_inTime idle tracks effect apart inTime
      have ring' := tracks'.holds.threaded.ring .ready
      rw [handle_idle idle, hstep]
      constructor
      · refine ⟨_, lists .ready, lists' .ready, rfl, ring, ring', fun i inside => ?_⟩
        refine ⟨fun stayed => (inTime' i stayed).young, fun left => ?_⟩
        exact (gone i inside left).imp_left (bssReady_iff ring').mpr
      · rintro a' hother
        cases hother
        refine ⟨idle, lists', tracks', ?_⟩
        change ∀ i ∈ lists' .ready, InTime s'.scanQueNodeTtl.toNat _ _
        rw [(step_config hstep).1]
        exact inTime'

theorem agesOk_init (deep : Nat) (ttl : UInt8) : AgesOk deep (agedInit deep ttl) := by
  obtain ⟨lists, holds, ready, free⟩ := holds_scanQueFree deep
  obtain ⟨other, tracks⟩ := invariant_init deep ttl
  have same : other .ready = [] := by
    have ring := tracks.holds.threaded.ring .ready
    exact ring.unique (ready ▸ holds.threaded.ring .ready)
  refine ⟨rfl, other, tracks, ?_⟩
  rw [same]
  exact nofun

end Step

theorem scan_results_age (elements : List UInt8 → Option UInt8)
    (overlay : ScanList → Queues ScanList Nat → MacAddr) {scanQueDeep : Nat}
    (several : 1 < scanQueDeep) (scanQueNodeTtl : UInt8) (msgs : List Message)
    (apart : EachStep (agedStep elements overlay) (fun a => CountsApart a.handler)
      (agedInit scanQueDeep scanQueNodeTtl) msgs) :
    EachStep (agedStep elements overlay) (AgesLawfully elements overlay)
      (agedInit scanQueDeep scanQueNodeTtl) msgs := by
  refine EachStep.imp (AgesOk scanQueDeep) ?_ ?_ (agesOk_init _ _) apart
  · intro a msg a' ok allowed
    exact (agedStep_ok elements overlay several ok allowed).2 a'
  · intro a msg ok allowed
    exact (agedStep_ok elements overlay several ok allowed).1

/-- One beacon, a reader that clears the hold count, and ten refreshes of the channel. -/
def walkedRun : List Message :=
  [Message.scan (.frame ⟨some 40, .beacon, agedBss, []⟩), .scan .work, .scan .readTry,
    .scan (.readVisit 63), .scan .readPost] ++
    (List.replicate 10 [Message.scan (.refresh [6]), .scan .work, .scan .work]).flatten

theorem scan_results_age_walked :
    1 < 64 ∧
    EachStep (agedStep (fun _ => some 6) fun _ _ => agedBss)
      (fun a => CountsApart a.handler) (agedInit 64 10) walkedRun ∧
    EachStep (agedStep (fun _ => some 6) fun _ _ => agedBss)
      (AgesLawfully (fun _ => some 6) fun _ _ => agedBss) (agedInit 64 10) walkedRun := by
  have checked : EachStep (agedStep (fun _ => some 6) fun _ _ => agedBss)
      (fun a msg => a.handler.scan.scanQueNodeTtl ≠ 0 ∧ countsApart a.handler msg = true)
      (agedInit 64 10) walkedRun := by decide +kernel
  have apart := EachStep.imp (fun _ => True) (fun _ _ _ _ _ _ => trivial)
    (fun a msg _ check => countsApart_of_check check.1 check.2) trivial checked
  exact ⟨by decide, apart, scan_results_age _ _ (by decide) 10 _ apart⟩

/-- One beacon that no reader walks past, up to the tenth refresh of its channel. -/
def heldRun : List Message :=
  [Message.scan (.frame ⟨some 40, .beacon, agedBss, []⟩), .scan .work] ++
    (List.replicate 9 [Message.scan (.refresh [6]), .scan .work, .scan .work]).flatten ++
    [Message.scan (.refresh [6])]

/-- The hold count keeps the node in the queue at its tenth refresh. -/
theorem scan_result_held_over :
    ¬ EachStep (agedStep (fun _ => some 6) fun _ _ => agedBss)
      (AgesLawfully (fun _ => some 6) fun _ _ => agedBss) (agedInit 64 10)
      (heldRun ++ [.scan .work]) := by
  intro steps
  have found : (run (agedStep (fun _ => some 6) fun _ _ => agedBss) (agedInit 64 10)
      heldRun).any (fun a => decide (a.handler.scan.scanQueNodeTtl = 10 ∧
        a.handler.scan.que.links.next (.head .ready) = .node 63) &&
      (agedStep (fun _ => some 6) (fun _ _ => agedBss) a (.scan .work)).any fun a' =>
        decide (a'.age 63 = 10 ∧
          a'.handler.scan.que.links.next (.head .ready) = .node 63)) = true := by
    decide +kernel
  obtain ⟨a, reached, facts⟩ := (Option.any_eq_true _ _).mp found
  obtain ⟨a', ready, ready', hstep, isReady, isReady', law⟩ := steps.last reached
  rw [Bool.and_eq_true, decide_eq_true_iff, hstep, Option.any_some,
    decide_eq_true_iff] at facts
  obtain ⟨⟨ttl, first⟩, age, first'⟩ := facts
  have young := (law 63 (isReady.first_mem first)).1 (isReady'.first_mem first')
  rw [ttl, age] at young
  exact absurd young (by decide)

end Smartchip.Scan
