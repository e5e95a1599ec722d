import Smartchip.Scan.Flush
import Smartchip.Scan.Lock

/-!
# The thread of the scan results

`rx_frame_handle` with all messages that touch the scan results.  A flush is taken
turn by turn like the other loops, so that its turns are steps of a run although
the loop does not end.
-/

namespace Smartchip.Scan

open Smartchip.Foundation Smartchip.Frame Smartchip.Utility

/-- `flushing` are the loop variables of a flush that is going on. -/
structure Handler where
  scan : ScanQue
  flushing : Option (ScanEntry × ScanEntry)

inductive Message where
  | scan (input : Input)
  | flush

/-- `wlan_mgmt_scan_que_node_flush` up to the first test of its loop. -/
def flushStart (h : Handler) : Option Handler :=
  let s := h.scan
  if wfQueIsEmpty s.que .ready then some h
  else if s.sema = 0 then some h
  else
    match wfDequeHead s.que .ready with
    | (none, _) => none
    | (some first, que) =>
        let pos := que.links.next first
        some {
          scan := { s with que, sema := s.sema - 1 }
          flushing := some (pos, que.links.next pos) }

/-- The test of the loop and its body. -/
def flushTurn (overlay : ScanList → Queues ScanList Nat → MacAddr) (s : ScanQue)
    (pos n : ScanEntry) : Handler :=
  let head := wfDequeHead s.que .ready
  if head.1 = some pos then ⟨{ s with que := head.2, sema := s.sema + 1 }, none⟩
  else
    let que := flushBody overlay s head.2 pos
    ⟨{ s with que }, some (n, que.links.next n)⟩

/-- A message waits until the thread is idle. -/
def handle (elements : List UInt8 → Option UInt8)
    (overlay : ScanList → Queues ScanList Nat → MacAddr) (h : Handler) :
    Message → Option Handler
  | .flush =>
      match h.flushing, h.scan.phase with
      | none, .idle => flushStart h
      | _, _ => some h
  | .scan input =>
      match h.flushing, input with
      | some (pos, n), .work => some (flushTurn overlay h.scan pos n)
      | some _, .frame _ => some h
      | some _, .refresh _ => some h
      | _, _ => (step elements h.scan input).map fun scan => { h with scan }

def handlerInit (scanQueDeep : Nat) (scanQueNodeTtl : UInt8) : Handler :=
  ⟨wlanMgmtScanQueInit scanQueDeep scanQueNodeTtl, none⟩

/-- The turns are those of the loop of `wlan_mgmt_scan_que_node_flush`. -/
theorem flushLoop_turn (overlay : ScanList → Queues ScanList Nat → MacAddr) (s : ScanQue)
    (fuel : Nat) (pos n : ScanEntry) :
    flushLoop overlay s (fuel + 1) pos n s.que =
      match (flushTurn overlay s pos n).flushing with
      | none => some (flushTurn overlay s pos n).scan.que
      | some (pos', n') =>
          flushLoop overlay s fuel pos' n' (flushTurn overlay s pos n).scan.que := by
  rw [flushLoop]
  unfold flushTurn
  by_cases found : (wfDequeHead s.que .ready).1 = some pos
  · simp [found]
  · simp [found]

/-! ## What the steps leave alone -/

structure SameConfig (s s' : ScanQue) : Prop where
  connect : s'.connect = s.connect
  curBssid : s'.curBssid = s.curBssid
  scanQueNodeTtl : s'.scanQueNodeTtl = s.scanQueNodeTtl

section Config

variable {elements : List UInt8 → Option UInt8} {s s' : ScanQue} {msg : RxFrmMsg}
  {pnewNode : Nat} {pswapNode pinstPos : Option Nat} {chMap : List UInt8}

theorem insertNode_config : SameConfig s (insertNode s pnewNode pswapNode pinstPos) := by
  unfold insertNode
  split_ifs
  · exact ⟨rfl, rfl, rfl⟩
  · exact ⟨rfl, rfl, rfl⟩

theorem nodePush_config (h : nodePush s pnewNode msg pswapNode pinstPos = some s') :
    SameConfig s s' := by
  unfold nodePush at h
  split at h
  · split_ifs at h
    · cases h
      exact ⟨rfl, rfl, rfl⟩
    · cases h
      exact ⟨rfl, rfl, rfl⟩
    · cases h
      exact insertNode_config
  · split_ifs at h
    · cases h
      exact ⟨rfl, rfl, rfl⟩
    · split at h
      · split_ifs at h
        · cases h
          exact ⟨rfl, rfl, rfl⟩
        · cases h
          exact insertNode_config
      · cases h
    · cases h
      exact insertNode_config

theorem searchTurn_config {pos : ScanEntry}
    (h : searchTurn s pnewNode msg pos pswapNode pinstPos = some s') : SameConfig s s' := by
  unfold searchTurn at h
  split at h
  · cases h
  · exact nodePush_config h
  · dsimp only at h
    split_ifs at h
    · exact nodePush_config h
    · cases h
      exact ⟨rfl, rfl, rfl⟩

theorem rxFrame_config (h : rxFrame elements s msg = some s') : SameConfig s s' := by
  unfold rxFrame at h
  split at h
  · cases h
    exact ⟨rfl, rfl, rfl⟩
  · cases h
  · dsimp only at h
    split_ifs at h
    · cases h
      exact ⟨rfl, rfl, rfl⟩
    · cases h
      exact ⟨rfl, rfl, rfl⟩

theorem refreshNode_config (s : ScanQue) (chMap : List UInt8) (i : Nat) :
    SameConfig s (refreshNode s chMap i) := by
  unfold refreshNode
  dsimp only
  split_ifs
  all_goals exact ⟨rfl, rfl, rfl⟩

theorem refreshTurn_config {pos n : ScanEntry} (h : refreshTurn s chMap pos n = some s') :
    SameConfig s s' := by
  unfold refreshTurn at h
  split at h
  · cases h
  · cases h
    exact ⟨rfl, rfl, rfl⟩
  · rename_i i
    cases h
    have same := refreshNode_config s chMap i
    exact ⟨same.connect, same.curBssid, same.scanQueNodeTtl⟩

/-- Only the MLME changes the link, and nothing the time to live of new nodes. -/
theorem step_config {input : Input} (h : step elements s input = some s') :
    s'.scanQueNodeTtl = s.scanQueNodeTtl ∧
      ((∀ connect curBssid, input ≠ .link connect curBssid) →
        s'.connect = s.connect ∧ s'.curBssid = s.curBssid) := by
  have of_same (same : SameConfig s s') : s'.scanQueNodeTtl = s.scanQueNodeTtl ∧
      ((∀ connect curBssid, input ≠ .link connect curBssid) →
        s'.connect = s.connect ∧ s'.curBssid = s.curBssid) :=
    ⟨same.scanQueNodeTtl, fun _ => ⟨same.connect, same.curBssid⟩⟩
  have quiet (same : some s = some s') : SameConfig s s' := by
    cases same
    exact ⟨rfl, rfl, rfl⟩
  unfold step at h
  cases input with
  | frame msg =>
      cases phase : s.phase with
      | idle =>
          rw [phase] at h
          exact of_same (rxFrame_config h)
      | searching _ _ _ _ _ =>
          rw [phase] at h
          exact of_same (quiet h)
      | refreshing _ _ _ =>
          rw [phase] at h
          exact of_same (quiet h)
  | refresh chMap =>
      cases phase : s.phase with
      | idle =>
          rw [phase] at h
          cases h
          exact of_same ⟨rfl, rfl, rfl⟩
      | searching _ _ _ _ _ =>
          rw [phase] at h
          exact of_same (quiet h)
      | refreshing _ _ _ =>
          rw [phase] at h
          exact of_same (quiet h)
  | work =>
      cases phase : s.phase with
      | idle =>
          rw [phase] at h
          exact of_same (quiet h)
      | searching _ _ _ _ _ =>
          rw [phase] at h
          exact of_same (searchTurn_config h)
      | refreshing _ _ _ =>
          rw [phase] at h
          exact of_same (refreshTurn_config h)
  | readTry =>
      rw [readTry_eq] at h
      cases h
      exact of_same ⟨rfl, rfl, rfl⟩
  | readVisit i =>
      cases h
      unfold readVisit
      split_ifs
      · exact ⟨rfl, fun _ => ⟨rfl, rfl⟩⟩
      · exact ⟨rfl, fun _ => ⟨rfl, rfl⟩⟩
  | readPost =>
      rw [readPost_eq] at h
      cases h
      exact of_same ⟨rfl, rfl, rfl⟩
  | link connect curBssid =>
      cases h
      exact ⟨rfl, fun apart => absurd rfl (apart connect curBssid)⟩

end Config

/-! ## The invariant -/

/-- The queues are in order, or a flush has gone astray with what is left of the ready
queue. -/
def HandlerOk (deep : Nat) (h : Handler) : Prop :=
  match h.flushing with
  | none => Invariant deep h.scan
  | some (pos, n) => h.scan.phase = .idle ∧ ∃ ready part,
      Astray h.scan.que.links ready part ∧ part pos ∧ part n ∧ Ranked h.scan.node ready

/-- The nodes that the pointers of the ready queue lead to. -/
def IsReady (s : ScanQue) (ready : List Nat) : Prop :=
  Threads s.que.links .ready ready

theorem HandlerOk.ready {deep : Nat} {h : Handler} (ok : HandlerOk deep h) :
    ∃ ready, IsReady h.scan ready ∧ Ranked h.scan.node ready := by
  unfold HandlerOk at ok
  cases flushing : h.flushing with
  | none =>
      rw [flushing] at ok
      obtain ⟨lists, tracks⟩ := ok
      exact ⟨_, tracks.holds.threaded.ring .ready, tracks.ranked⟩
  | some vars =>
      rw [flushing] at ok
      obtain ⟨-, ready, part, astray, -, -, ranked⟩ := ok
      exact ⟨ready, astray.ring, ranked⟩

section Kept

variable {deep : Nat} {h : Handler} {elements : List UInt8 → Option UInt8}
  {overlay : ScanList → Queues ScanList Nat → MacAddr}

/-- How a flush begins. -/
theorem flushStart_cases {lists : ScanList → List Nat} (tracks : Tracks deep h.scan lists) :
    flushStart h = some h ∧ (lists .ready = [] ∨ h.scan.sema = 0) ∨
      ∃ x rest h', lists .ready = x :: rest ∧ h.scan.sema ≠ 0 ∧ flushStart h = some h' ∧
        h'.scan.node = h.scan.node ∧ h'.scan.phase = h.scan.phase ∧
        h'.scan.connect = h.scan.connect ∧ h'.scan.curBssid = h.scan.curBssid ∧
        h'.flushing = some (.node x, .node x) ∧
        ∃ part, Astray h'.scan.que.links rest part ∧ part (.node x) := by
  unfold flushStart
  dsimp only
  rw [tracks.holds.isEmpty]
  cases ready : lists .ready with
  | nil => exact .inl ⟨rfl, .inl rfl⟩
  | cons x rest =>
      rw [if_neg (by simp)]
      by_cases lock : h.scan.sema = 0
      · rw [if_pos lock]
        exact .inl ⟨rfl, .inr lock⟩
      · rw [if_neg lock]
        obtain ⟨que, taken, self, part, astray, inside⟩ := Astray.start tracks.holds ready
        rw [taken]
        refine .inr ⟨x, rest, _, rfl, lock, rfl, rfl, rfl, rfl, rfl, ?_, part, astray, inside⟩
        simp [self]

/-- A turn of the flush takes the first node of the ready queue. -/
theorem flushTurn_astray (overlay : ScanList → Queues ScanList Nat → MacAddr)
    {s : ScanQue} {pos n : ScanEntry} {ready : List Nat} {part : ScanEntry → Prop}
    (astray : Astray s.que.links ready part) (hpos : part pos)
    (hn : part n) :
    ∃ que m, flushTurn overlay s pos n = ⟨{ s with que }, some (n, m)⟩ ∧
      Astray que.links ready.tail part ∧ part m := by
  obtain ⟨notFound, shorter⟩ := astray.test hpos
  have next := shorter.body overlay s hpos
  refine ⟨_, _, ?_, next, (next.closed n hn).1⟩
  unfold flushTurn
  rw [if_neg notFound]

/-- Readers and the link leave the pointers and the thread alone. -/
theorem step_aside {s : ScanQue} {input : Input} (frame : ∀ msg, input ≠ .frame msg)
    (refresh : ∀ chMap, input ≠ .refresh chMap) (work : input ≠ .work) :
    ∃ s', step elements s input = some s' ∧ s'.que = s.que ∧ s'.phase = s.phase ∧
      ∀ i, (s'.node i).bssid = (s.node i).bssid ∧
        (s'.node i).signalStrength = (s.node i).signalStrength := by
  cases input with
  | frame msg => exact absurd rfl (frame msg)
  | refresh chMap => exact absurd rfl (refresh chMap)
  | work => exact absurd rfl work
  | readTry =>
      rw [step, readTry_eq]
      exact ⟨_, rfl, rfl, rfl, fun _ => ⟨rfl, rfl⟩⟩
  | readVisit i =>
      refine ⟨_, rfl, ?_⟩
      unfold readVisit
      split_ifs
      · exact ⟨rfl, rfl, fun _ => ⟨rfl, rfl⟩⟩
      · exact ⟨rfl, rfl, fun j => ⟨setTtl_bssid _ j, setTtl_signalStrength _ j⟩⟩
  | readPost =>
      rw [step, readPost_eq]
      exact ⟨_, rfl, rfl, rfl, fun _ => ⟨rfl, rfl⟩⟩
  | link connect curBssid => exact ⟨_, rfl, rfl, rfl, fun _ => ⟨rfl, rfl⟩⟩

/-- The step is one of a flush, which takes the first node off the ready queue. -/
def Takes (h : Handler) (msg : Message) : Prop :=
  msg = .flush ∧ h.flushing = none ∧ h.scan.phase = .idle ∧ h.scan.sema ≠ 0 ∨
    msg = .scan .work ∧ h.flushing ≠ none

/-- What a step of the thread, of a reader or of the link does. -/
inductive Handled (deep : Nat) (h : Handler) (msg : Message) (h' : Handler) : Prop
  | turn (input : Input) (isScan : msg = .scan input) (idle : h.flushing = none)
      (lists lists' : ScanList → List Nat) (tracks : Tracks deep h.scan lists)
      (tracks' : Tracks deep h'.scan lists')
      (effect : Effect h.scan (lists .ready) h'.scan.node (lists' .ready) input)
      (idle' : h'.flushing = none)
  | aside (calm : ¬ Takes h msg)
      (away : h.flushing = none → msg ≠ .scan .work) (que : h'.scan.que = h.scan.que)
      (node : ∀ i, (h'.scan.node i).bssid = (h.scan.node i).bssid)
      (flushing : h'.flushing = h.flushing)
  | took (takes : Takes h msg) (ready : List Nat) (isReady : IsReady h.scan ready)
      (isReady' : IsReady h'.scan ready.tail) (node : h'.scan.node = h.scan.node)
      (link : h'.scan.connect = h.scan.connect ∧ h'.scan.curBssid = h.scan.curBssid)

theorem handle_flush (ok : HandlerOk deep h) :
    ∃ h', handle elements overlay h .flush = some h' ∧ HandlerOk deep h' ∧
      Handled deep h .flush h' := by
  have waits (busy : h.flushing ≠ none ∨ h.scan.phase ≠ .idle)
      (same : handle elements overlay h .flush = some h) :
      ∃ h', handle elements overlay h .flush = some h' ∧ HandlerOk deep h' ∧
        Handled deep h .flush h' := by
    refine ⟨h, same, ok, .aside ?_ nofun rfl (fun _ => rfl) rfl⟩
    rintro (⟨-, idle, phase, -⟩ | ⟨other, -⟩)
    · cases busy with
      | inl flushing => exact flushing idle
      | inr turning => exact turning phase
    · cases other
  cases flushing : h.flushing with
  | some vars =>
      apply waits (.inl (by simp [flushing]))
      unfold handle
      rw [flushing]
  | none =>
      cases phase : h.scan.phase with
      | searching _ _ _ _ _ =>
          apply waits (.inr (by simp [phase]))
          unfold handle
          rw [flushing, phase]
      | refreshing _ _ _ =>
          apply waits (.inr (by simp [phase]))
          unfold handle
          rw [flushing, phase]
      | idle =>
          have starts : handle elements overlay h .flush = flushStart h := by
            unfold handle
            rw [flushing, phase]
          have tracked := ok
          unfold HandlerOk at tracked
          rw [flushing] at tracked
          obtain ⟨lists, tracks⟩ := tracked
          have ring := tracks.holds.threaded.ring .ready
          rw [starts]
          rcases flushStart_cases tracks with ⟨same, empty | lock⟩ |
            ⟨x, rest, h', ready, lock, same, node, phase', connect, curBssid, vars, part,
              astray, inside⟩
          · refine ⟨h, same, ok, ?_⟩
            by_cases lock : h.scan.sema = 0
            · refine .aside ?_ nofun rfl (fun _ => rfl) rfl
              rintro (⟨-, -, -, free⟩ | ⟨other, -⟩)
              · exact free lock
              · cases other
            · rw [empty] at ring
              exact .took (.inl ⟨rfl, flushing, phase, lock⟩) [] ring ring rfl ⟨rfl, rfl⟩
          · refine ⟨h, same, ok, .aside ?_ nofun rfl (fun _ => rfl) rfl⟩
            rintro (⟨-, -, -, free⟩ | ⟨other, -⟩)
            · exact free lock
            · cases other
          · rw [ready] at ring
            refine ⟨h', same, ?_, .took (.inl ⟨rfl, flushing, phase, lock⟩) _ ring astray.ring
              node ⟨connect, curBssid⟩⟩
            unfold HandlerOk
            rw [vars]
            refine ⟨phase'.trans phase, rest, part, astray, inside, inside, ?_⟩
            rw [node]
            exact tracks.ranked.sublist (ready ▸ List.sublist_cons_self x rest)

theorem handle_idle (idle : h.flushing = none) (input : Input) :
    handle elements overlay h (.scan input) =
      (step elements h.scan input).map fun scan => { h with scan } := by
  unfold handle
  rw [idle]

theorem handle_scan (several : 1 < deep) (ok : HandlerOk deep h) (input : Input) :
    ∃ h', handle elements overlay h (.scan input) = some h' ∧ HandlerOk deep h' ∧
      Handled deep h (.scan input) h' := by
  have known := ok
  unfold HandlerOk at known
  cases flushing : h.flushing with
  | none =>
      rw [flushing] at known
      obtain ⟨lists, tracks⟩ := known
      obtain ⟨s', hstep, lists', tracks', effect⟩ := tracks.step elements several input
      refine ⟨{ h with scan := s' }, ?_, ?_,
        .turn input rfl flushing lists lists' tracks tracks' effect flushing⟩
      · rw [handle_idle flushing, hstep]
        rfl
      · unfold HandlerOk
        rw [flushing]
        exact ⟨lists', tracks'⟩
  | some vars =>
      obtain ⟨pos, n⟩ := vars
      rw [flushing] at known
      obtain ⟨phase, ready, part, astray, hpos, hn, ranked⟩ := known
      have calm (apart : input ≠ .work) : ¬ Takes h (.scan input) := by
        rintro (⟨other, -⟩ | ⟨same, -⟩)
        · cases other
        · exact apart (by injection same)
      have away : h.flushing = none → Message.scan input ≠ .scan .work := by
        rw [flushing]
        exact nofun
      by_cases work : input = .work
      · subst work
        obtain ⟨que, m, turned, shorter, hm⟩ :=
          flushTurn_astray overlay astray hpos hn
        refine ⟨⟨{ h.scan with que }, some (n, m)⟩, ?_, ?_,
          .took (.inr ⟨rfl, by simp [flushing]⟩) ready astray.ring shorter.ring rfl ⟨rfl, rfl⟩⟩
        · rw [← turned]
          unfold handle
          rw [flushing]
        · exact ⟨phase, _, part, shorter, hn, hm, ranked.sublist (List.tail_sublist ready)⟩
      · by_cases waits : (∃ msg, input = .frame msg) ∨ ∃ chMap, input = .refresh chMap
        · refine ⟨h, ?_, ok, .aside (calm work) away rfl (fun _ => rfl) rfl⟩
          unfold handle
          rw [flushing]
          rcases waits with ⟨msg, rfl⟩ | ⟨chMap, rfl⟩
          · rfl
          · rfl
        · rw [not_or, not_exists, not_exists] at waits
          obtain ⟨s', hstep, que, phase', same⟩ := step_aside waits.1 waits.2 work
          refine ⟨{ h with scan := s' }, ?_, ?_,
            .aside (calm work) away que (fun i => (same i).1) rfl⟩
          · unfold handle
            rw [flushing]
            cases input with
            | work => exact absurd rfl work
            | frame msg => exact absurd rfl (waits.1 msg)
            | refresh chMap => exact absurd rfl (waits.2 chMap)
            | readTry | readVisit _ | readPost | link _ _ =>
                dsimp only
                rw [hstep]
                rfl
          · unfold HandlerOk
            rw [flushing]
            refine ⟨phase'.trans phase, ready, part, ?_, hpos, hn,
              ranked.congr fun i _ => same i⟩
            rw [que]
            exact astray

theorem handle_cases (elements : List UInt8 → Option UInt8)
    (overlay : ScanList → Queues ScanList Nat → MacAddr) (several : 1 < deep)
    (ok : HandlerOk deep h) (msg : Message) :
    ∃ h', handle elements overlay h msg = some h' ∧ HandlerOk deep h' ∧
      Handled deep h msg h' := by
  cases msg with
  | flush => exact handle_flush ok
  | scan input => exact handle_scan several ok input

theorem handle_kept {msg : Message} {h' : Handler} (several : 1 < deep)
    (ok : HandlerOk deep h) (hstep : handle elements overlay h msg = some h') :
    HandlerOk deep h' := by
  obtain ⟨other, hother, ok', -⟩ := handle_cases elements overlay several ok msg
  cases hstep.symm.trans hother
  exact ok'

theorem handlerOk_init (deep : Nat) (ttl : UInt8) : HandlerOk deep (handlerInit deep ttl) :=
  invariant_init deep ttl

end Kept

end Smartchip.Scan
