import Smartchip.Scan.Handler

/-!
# The BSS in use

Three operations take nodes out of the ready queue.  The push asks `is_bss_onlink`
before it evicts a node; the refresh does not, and the head argument of the flush
takes nodes out before the loop asks.
-/

namespace Smartchip.Scan

open Smartchip.Foundation Smartchip.Frame Smartchip.Utility

def BssReady (s : ScanQue) (bssid : MacAddr) : Prop :=
  ∃ ready, IsReady s ready ∧ ∃ i ∈ ready, (s.node i).bssid = bssid

/-- While the link stays, so does the node of its BSS. -/
def KeepsBss (elements : List UInt8 → Option UInt8)
    (overlay : ScanList → Queues ScanList Nat → MacAddr) (h : Handler) (msg : Message) :
    Prop :=
  ∀ h', handle elements overlay h msg = some h' → h.scan.connect = true →
    h'.scan.connect = true → h'.scan.curBssid = h.scan.curBssid →
    BssReady h.scan h.scan.curBssid → BssReady h'.scan h.scan.curBssid

/-- With the node of the BSS in use in the ready queue, no step of a flush finds it
first, and no refresh with the write lock free finds its time to live used up. -/
def SparesBss (h : Handler) (msg : Message) : Prop :=
  h.scan.connect = true → BssReady h.scan h.scan.curBssid →
    (Takes h msg → ∀ i, h.scan.que.links.next (.head .ready) = .node i →
      (h.scan.node i).bssid ≠ h.scan.curBssid) ∧
    (msg = .scan .work → h.flushing = none → ∀ chMap i, Covers h.scan chMap i →
      (h.scan.node i).bssid = h.scan.curBssid →
      agedTtl (h.scan.node i).ttl ≠ 0 ∨ h.scan.sema = 0)

section Steps

variable {s s' : ScanQue} {ready ready' : List Nat} {bssid : MacAddr}

theorem bssReady_iff (isReady : IsReady s ready) :
    BssReady s bssid ↔ ∃ i ∈ ready, (s.node i).bssid = bssid := by
  constructor
  · rintro ⟨other, isOther, found⟩
    rw [isReady.unique isOther]
    exact found
  · exact fun found => ⟨ready, isReady, found⟩

theorem bssReady_congr (isReady : IsReady s ready) (isReady' : IsReady s' ready)
    (same : ∀ i ∈ ready, (s'.node i).bssid = (s.node i).bssid) :
    BssReady s' bssid ↔ BssReady s bssid := by
  rw [bssReady_iff isReady, bssReady_iff isReady']
  constructor
  · rintro ⟨i, member, found⟩
    exact ⟨i, member, (same i member) ▸ found⟩
  · rintro ⟨i, member, found⟩
    exact ⟨i, member, (same i member).trans found⟩

/-- Without the one node of the BSS the BSS is gone. -/
theorem bssReady_without {i : Nat} (isReady : IsReady s ready) (isReady' : IsReady s' ready')
    (distinct : (ready.map fun i => (s.node i).bssid).Nodup) (inside : i ∈ ready)
    (members : ∀ j, j ∈ ready' ↔ j ∈ ready ∧ j ≠ i)
    (same : ∀ j ∈ ready, (s'.node j).bssid = (s.node j).bssid) (present : BssReady s bssid) :
    BssReady s' bssid ↔ (s.node i).bssid ≠ bssid := by
  rw [bssReady_iff isReady']
  constructor
  · rintro ⟨j, member, found⟩ gone
    obtain ⟨old, ne⟩ := (members j).mp member
    rw [same j old, ← gone] at found
    exact ne (List.inj_on_of_nodup_map distinct old inside found)
  · intro other
    obtain ⟨j, old, found⟩ := (bssReady_iff isReady).mp present
    have ne : j ≠ i := by
      rintro rfl
      exact other found
    exact ⟨j, (members j).mpr ⟨old, ne⟩, (same j old).trans found⟩

/-- One effect of a step of the thread on the node of the BSS in use. -/
theorem effect_spares {input : Input} {deep : Nat} {lists lists' : ScanList → List Nat}
    (tracks : Tracks deep s lists) (tracks' : Tracks deep s' lists')
    (effect : Effect s (lists .ready) s'.node (lists' .ready) input)
    (connect : s.connect = true) (present : BssReady s s.curBssid) :
    BssReady s' s.curBssid ↔ (input = .work → ∀ chMap i, Covers s chMap i →
      (s.node i).bssid = s.curBssid → agedTtl (s.node i).ttl ≠ 0 ∨ s.sema = 0) := by
  have isReady := tracks.holds.threaded.ring .ready
  have isReady' := tracks'.holds.threaded.ring .ready
  cases effect with
  | quiet same node calm =>
      rw [same] at isReady'
      rw [bssReady_congr isReady isReady' fun i member => by rw [node i member]]
      simp only [present, true_iff]
      exact fun work chMap i covers => absurd covers (calm work chMap i)
  | visited i same node =>
      rw [same] at isReady'
      rw [bssReady_congr isReady isReady' fun j _ => by rw [node, setTtl_bssid]]
      simp [present]
  | held i same hold node calm =>
      rw [same] at isReady'
      rw [bssReady_congr isReady isReady' fun j _ => by rw [node, setTtl_bssid]]
      simp only [present, true_iff]
      exact fun _ chMap i covers => absurd covers (calm chMap i)
  | pushed pnewNode pswapNode new members out node =>
      have calm := calm_of_held new
      have kept : BssReady s' s.curBssid := by
        obtain ⟨i, old, found⟩ := (bssReady_iff isReady).mp present
        rw [bssReady_iff isReady']
        by_cases swapped : pswapNode = some i
        · refine ⟨pnewNode, (members _).mpr (.inl rfl), ?_⟩
          rw [node, setTtl_bssid]
          cases out i swapped with
          | inl same => exact same.symm.trans found
          | inr evicts =>
              obtain ⟨-, -, -, -, -, -, -, -, apart⟩ := evicts
              simp [isBssOnlink, connect, found] at apart
        · refine ⟨i, (members i).mpr (.inr ⟨old, swapped⟩), ?_⟩
          rw [node, setTtl_bssid]
          exact found
      simp only [kept, true_iff]
      exact fun _ chMap i covers => absurd covers (calm chMap i)
  | aged chMap i covers inside stays same node =>
      rw [same] at isReady'
      rw [bssReady_congr isReady isReady' fun j _ => by rw [node, setTtl_bssid]]
      simp only [present, true_iff]
      rintro - other j ⟨⟨n, phase⟩, -⟩ -
      obtain ⟨⟨m, phase'⟩, -⟩ := covers
      cases phase.symm.trans phase'
      exact stays
  | retired chMap i covers inside expired lock members node =>
      rw [bssReady_without isReady isReady' tracks.ranked.distinct inside members
        (fun j _ => by rw [node, setTtl_bssid]) present]
      constructor
      · rintro apart - other j ⟨⟨n, phase⟩, -⟩ onlink
        obtain ⟨⟨m, phase'⟩, -⟩ := covers
        cases phase.symm.trans phase'
        exact absurd onlink apart
      · intro spares onlink
        cases spares rfl chMap i covers onlink with
        | inl left => exact left expired
        | inr busy => exact lock busy

end Steps

section Run

variable {deep : Nat} {h : Handler} {msg : Message} {elements : List UInt8 → Option UInt8}
  {overlay : ScanList → Queues ScanList Nat → MacAddr}

theorem turn_spares {input : Input} {h' : Handler} {lists lists' : ScanList → List Nat}
    (hstep : handle elements overlay h (.scan input) = some h') (idle : h.flushing = none)
    (tracks : Tracks deep h.scan lists) (tracks' : Tracks deep h'.scan lists')
    (effect : Effect h.scan (lists .ready) h'.scan.node (lists' .ready) input) :
    KeepsBss elements overlay h (.scan input) ↔ SparesBss h (.scan input) := by
  have spares := effect_spares tracks tracks' effect
  have calm : ¬ Takes h (.scan input) := by
    rintro (⟨other, -⟩ | ⟨-, busy⟩)
    · cases other
    · exact busy idle
  constructor
  · intro keeps connect present
    refine ⟨fun takes => absurd takes calm, ?_⟩
    intro isWork _ chMap i covers onlink
    cases isWork
    rw [handle_idle idle, Option.map_eq_some_iff] at hstep
    obtain ⟨s', hs', rfl⟩ := hstep
    obtain ⟨-, link⟩ := step_config hs'
    obtain ⟨connect', curBssid'⟩ := link nofun
    have kept := keeps { h with scan := s' }
      (by rw [handle_idle idle, hs']; rfl) connect (connect'.trans connect) curBssid' present
    exact (spares connect present).mp kept rfl chMap i covers onlink
  · intro allowed other hother connect _ _ present
    cases hstep.symm.trans hother
    apply (spares connect present).mpr
    intro work
    exact (allowed connect present).2 (by rw [work]) idle

theorem took_spares {h' : Handler} {ready : List Nat} (ok : HandlerOk deep h)
    (hstep : handle elements overlay h msg = some h') (takes : Takes h msg)
    (isReady : IsReady h.scan ready) (isReady' : IsReady h'.scan ready.tail)
    (node : h'.scan.node = h.scan.node)
    (link : h'.scan.connect = h.scan.connect ∧ h'.scan.curBssid = h.scan.curBssid) :
    KeepsBss elements overlay h msg ↔ SparesBss h msg := by
  have turning : msg = .scan .work → h.flushing ≠ none := by
    rintro rfl idle
    rcases takes with ⟨other, -⟩ | ⟨-, busy⟩
    · cases other
    · exact busy idle
  have spares (present : BssReady h.scan h.scan.curBssid) :
      BssReady h'.scan h.scan.curBssid ↔
        ∀ i, h.scan.que.links.next (.head .ready) = .node i →
          (h.scan.node i).bssid ≠ h.scan.curBssid := by
    cases ready with
    | nil =>
        obtain ⟨i, member, -⟩ := (bssReady_iff isReady).mp present
        simp at member
    | cons x rest =>
        obtain ⟨all, isAll, ranked⟩ := ok.ready
        cases isReady.unique isAll
        have absent : x ∉ rest := (List.nodup_cons.mp isReady.nodup).1
        have first : h.scan.que.links.next (.head .ready) = .node x := isReady.next_head
        have members (j : Nat) : j ∈ rest ↔ j ∈ x :: rest ∧ j ≠ x := by
          rw [List.mem_cons]
          constructor
          · intro member
            exact ⟨.inr member, fun same => absent (same ▸ member)⟩
          · rintro ⟨rfl | member, ne⟩
            · exact absurd rfl ne
            · exact member
        rw [bssReady_without isReady isReady' ranked.distinct (List.mem_cons_self ..) members
          (fun j _ => by rw [node]) present]
        constructor
        · intro apart i found
          cases first.symm.trans found
          exact apart
        · exact fun apart => apart x first
  constructor
  · intro keeps connect present
    refine ⟨fun _ => (spares present).mp ?_, fun work idle => absurd idle (turning work)⟩
    exact keeps h' hstep connect (link.1.trans connect) link.2 present
  · intro allowed other hother connect _ _ present
    cases hstep.symm.trans hother
    exact (spares present).mpr ((allowed connect present).1 takes)

theorem keepsBss_iff_spares (several : 1 < deep) (ok : HandlerOk deep h) (msg : Message) :
    KeepsBss elements overlay h msg ↔ SparesBss h msg := by
  obtain ⟨h', hstep, -, handled⟩ := handle_cases elements overlay several ok msg
  cases handled with
  | turn input isScan idle lists lists' tracks tracks' effect idle' =>
      subst isScan
      exact turn_spares hstep idle tracks tracks' effect
  | aside calm away que node flushing =>
      constructor
      · rintro - - -
        exact ⟨fun takes => absurd takes calm, fun work idle => absurd work (away idle)⟩
      · rintro - other hother - - - ⟨ready, isReady, i, member, onlink⟩
        cases hstep.symm.trans hother
        refine ⟨ready, ?_, i, member, (node i).trans onlink⟩
        unfold IsReady
        rw [que]
        exact isReady
  | took takes ready isReady isReady' node link =>
      exact took_spares ok hstep takes isReady isReady' node link

end Run

/-- A run keeps the node of the BSS in use at every step exactly when every step spares
it. -/
theorem associated_bss_kept_iff (elements : List UInt8 → Option UInt8)
    (overlay : ScanList → Queues ScanList Nat → MacAddr) {scanQueDeep : Nat}
    (several : 1 < scanQueDeep) (scanQueNodeTtl : UInt8) (msgs : List Message) :
    EachStep (handle elements overlay) (KeepsBss elements overlay)
        (handlerInit scanQueDeep scanQueNodeTtl) msgs ↔
      EachStep (handle elements overlay) SparesBss
        (handlerInit scanQueDeep scanQueNodeTtl) msgs := by
  refine eachStep_congr (HandlerOk scanQueDeep) ?_ ?_ (handlerOk_init _ _)
  · exact fun h msg h' => handle_kept several
  · exact fun h msg ok => keepsBss_iff_spares several ok msg

theorem associated_bss_kept_iff_configured :
    1 < 64 ∧ (EachStep (handle (fun _ => some 6) fun _ _ => Vector.replicate 6 0)
        (KeepsBss (fun _ => some 6) fun _ _ => Vector.replicate 6 0) (handlerInit 64 10)
        [.scan (.frame ⟨some 40, .beacon, Vector.replicate 6 2, []⟩), .scan .work, .flush] ↔
      EachStep (handle (fun _ => some 6) fun _ _ => Vector.replicate 6 0) SparesBss
        (handlerInit 64 10)
        [.scan (.frame ⟨some 40, .beacon, Vector.replicate 6 2, []⟩), .scan .work,
          .flush]) :=
  ⟨by decide, associated_bss_kept_iff _ _ (by decide) 10 _⟩

def agedBss : MacAddr := Vector.replicate 6 2

/-- One beacon, a reader that clears the hold count, and refreshes of the channel. -/
def agedRun : List Message :=
  [Message.scan (.frame ⟨some 40, .beacon, agedBss, []⟩), .scan .work,
    .scan (.link true agedBss), .scan .readTry, .scan (.readVisit 63), .scan .readPost] ++
    (List.replicate 9 [Message.scan (.refresh [6]), .scan .work, .scan .work]).flatten ++
    [Message.scan (.refresh [6])]

theorem agedRun_covers :
    ∃ h, run (handle (fun _ => some 6) fun _ _ => agedBss) (handlerInit 64 10) agedRun =
        some h ∧ h.flushing = none ∧ h.scan.connect = true ∧ h.scan.curBssid = agedBss ∧
      h.scan.sema = 1 ∧ h.scan.que.links.next (.head .ready) = .node 63 ∧
      (h.scan.node 63).bssid = agedBss ∧ (h.scan.node 63).ttl = 1 ∧
      Covers h.scan [6] 63 := by
  have found : (run (handle (fun _ => some 6) fun _ _ => agedBss) (handlerInit 64 10)
      agedRun).any (fun h => decide (h.flushing = none ∧ h.scan.connect = true ∧
        h.scan.curBssid = agedBss ∧ h.scan.sema = 1 ∧
        h.scan.que.links.next (.head .ready) = .node 63 ∧
        (h.scan.node 63).bssid = agedBss ∧ (h.scan.node 63).ttl = 1 ∧
        (h.scan.node 63).channel ∈ [6]) &&
      match h.scan.phase with
      | .refreshing chMap pos _ => decide (chMap = [6] ∧ pos = .node 63)
      | _ => false) = true := by decide +kernel
  obtain ⟨h, reached, facts⟩ := (Option.any_eq_true _ _).mp found
  rw [Bool.and_eq_true, decide_eq_true_iff] at facts
  obtain ⟨⟨flushing, connect, curBssid, sema, first, bssid, ttl, channel⟩, turn⟩ := facts
  refine ⟨h, reached, flushing, connect, curBssid, sema, first, bssid, ttl, ?_, channel⟩
  split at turn
  · rename_i chMap pos n phase
    obtain ⟨rfl, rfl⟩ := of_decide_eq_true turn
    exact ⟨n, phase⟩
  · cases turn

/-- The tenth refresh without a new beacon takes the BSS in use away. -/
theorem associated_bss_ages_out :
    ¬ EachStep (handle (fun _ => some 6) fun _ _ => agedBss)
      (KeepsBss (fun _ => some 6) fun _ _ => agedBss) (handlerInit 64 10)
      (agedRun ++ [.scan .work]) := by
  intro steps
  obtain ⟨h, reached, flushing, connect, curBssid, sema, first, bssid, ttl, covers⟩ :=
    agedRun_covers
  have ok : HandlerOk 64 h := by
    refine run_invariant (HandlerOk 64) ?_ (handlerOk_init 64 10) reached
    exact fun state next msg _ => handle_kept (by decide)
  have spares := (keepsBss_iff_spares (by decide) ok _).mp (steps.last reached)
  have present : BssReady h.scan h.scan.curBssid := by
    obtain ⟨ready, isReady, -⟩ := ok.ready
    exact ⟨ready, isReady, 63, isReady.first_mem first, bssid.trans curBssid.symm⟩
  have left := (spares connect present).2 rfl flushing [6] 63 covers
    (bssid.trans curBssid.symm)
  rw [ttl, sema] at left
  revert left
  decide

end Smartchip.Scan
