import Smartchip.Scan.Thread

/-!
# What the scan thread holds

At every point of `wf_scan_thrd` it is fixed which of its resources the thread holds, so
at the exit it holds none.  Only the settings can get lost: `scan_setting` may fail half
way, the thread puts back the settings of a scan that has begun, and nobody puts the BSSID
of the filter back.
-/

namespace Smartchip.Scan

open Smartchip.Foundation Smartchip.Frame Smartchip.Utility

universe u

/-- What the thread holds at a point; `run` is the value of `brun` where it is fixed. -/
structure Holding where
  hw : Bool
  start : Bool
  preq : Bool
  tx : Bool
  lock : Bool
  run : Option Bool

def Pc.holding : Pc → Holding
  | .waitHw | .exited => ⟨false, false, false, false, false, some false⟩
  | .popStart | .unlockHw => ⟨true, false, false, false, false, some false⟩
  | .setReq => ⟨true, true, false, false, false, some false⟩
  | .cutTx | .waitReq => ⟨true, true, true, false, false, some false⟩
  | .drain | .setting | .setRun | .resumeTx => ⟨true, true, true, true, false, some false⟩
  | .exit => ⟨true, true, true, true, false, none⟩
  | .chTest | .probe | .activeWait | .passiveWait | .pauseTest | .pauseWait | .pauseEnd
  | .chNext | .done | .clearRun => ⟨true, true, true, true, false, some true⟩
  | .delReq => ⟨true, true, true, false, true, some false⟩
  | .clearReq => ⟨true, false, true, false, true, some false⟩
  | .postReq => ⟨true, false, false, false, true, some false⟩

section Thread

variable {Party : Type u} {s : ScanSystem Party} {h : Holding} {a : Answers} {prbTimes : Nat}

/-- The thread holds exactly this, a filter that is inside has the lock, and every message
is in one place. -/
structure HoldsAt (s : ScanSystem Party) (h : Holding) : Prop where
  hw : s.hwLock = some .thread ↔ h.hw = true
  lock : s.reqLock = some .thread ↔ h.lock = true
  preq : s.preq = h.preq
  start : ∀ tag, s.que.total tag + (if tag = .start then h.start.toNat else 0) = 1
  taken : s.taken = s.returned + h.start.toNat
  tx : s.txCut = s.txResumed + h.tx.toNat
  run : ∀ b, h.run = some b → s.brun = b
  filters : ∀ party, s.filters party = .inside → s.reqLock = some (.filter party)

theorem HoldsAt.total (ok : HoldsAt s h) {tag : ScanTag} (inside : tag ∈ s.que.pend) :
    s.que.total tag = 1 := by
  have once := ok.start tag
  have some := total_pos_of_pend inside
  omega

/-- The START message is not in a queue while the thread has it. -/
theorem HoldsAt.start_absent (ok : HoldsAt s h) (held : h.start = true) :
    s.que.total .start = 0 := by
  have once := ok.start .start
  rw [if_pos rfl, held] at once
  exact Nat.succ.inj once

/-- A message is popped and put back. -/
theorem total_pop_del {que que' : MsgQue ScanTag} {tag : ScanTag}
    (once : que.total tag = 1) (popped : que' = msgPop que tag) (other : ScanTag) :
    (wfMsgDel que' tag).total other = que.total other := by
  subst popped
  rw [total_wfMsgDel (total_msgPop_self once)]
  by_cases same : other = tag
  · subst same
    rw [if_pos rfl, total_msgPop_self once, once]
  · rw [if_neg same, total_msgPop_other same, Nat.add_zero]

theorem HoldsAt.pop_del (ok : HoldsAt s h) {tag : ScanTag} {que : MsgQue ScanTag}
    (pops : wfMsgPop s.que = some (tag, que)) :
    HoldsAt { s with que := wfMsgDel que tag } h := by
  obtain ⟨inside, popped⟩ := wfMsgPop_some pops
  refine { ok with start := fun other => ?_ }
  rw [total_pop_del (ok.total inside) popped]
  exact ok.start other

theorem HoldsAt.pops_abort (ok : HoldsAt s h) (held : h.start = true)
    {que : MsgQue ScanTag} (pops : wfMsgPop s.que = some (.start, que)) : False := by
  have inside := total_pos_of_pend (wfMsgPop_some pops).1
  rw [ok.start_absent held] at inside
  exact absurd inside (by decide)

def HoldsAll (s : ScanSystem Party) : Prop := HoldsAt s s.pc.holding

/-- What is held from the cut of the transmission to its resumption. -/
def busy (run : Option Bool) : Holding := ⟨true, true, true, true, false, run⟩

theorem HoldsAt.fail {run : Option Bool} (ok : HoldsAt s (busy run)) (code : Int) :
    HoldsAll (fail s code) :=
  { ok with run := nofun }

theorem HoldsAt.suspend (ok : HoldsAt s h) (here : s.pc.holding = h) :
    HoldsAll (suspend s a) := by
  unfold HoldsAll
  change HoldsAt (Scan.suspend s a) s.pc.holding
  rw [here]
  exact { ok with }

theorem HoldsAt.awaitAbort {timeout : ScanSystem Party → ScanSystem Party}
    (ok : HoldsAt s (busy (some true))) (here : s.pc.holding = busy (some true))
    (next : HoldsAll (timeout s)) : HoldsAll (awaitAbort s a timeout) := by
  unfold Scan.awaitAbort
  split
  · rename_i que pops
    exact { ok.pop_del pops with }
  · rename_i que pops
    exact (ok.pops_abort rfl pops).elim
  · by_cases expired : a.expired = true
    · rw [if_pos expired]
      exact next
    · rw [if_neg expired]
      exact ok.suspend here

theorem HoldsAt.popStart (ok : HoldsAt s (Pc.holding .popStart)) (here : s.pc = .popStart) :
    HoldsAll (popStart s a) := by
  unfold Scan.popStart
  split
  · exact { ok with hw := by simp [Pc.holding] }
  · rename_i que pops
    obtain ⟨inside, popped⟩ := wfMsgPop_some pops
    have once := ok.total inside
    refine { ok with start := fun tag => ?_, taken := by rw [ok.taken]; rfl }
    dsimp only at popped ⊢
    rw [popped]
    cases tag with
    | abort =>
        rw [total_msgPop_other (by decide)]
        exact ok.start .abort
    | start =>
        rw [total_msgPop_self once]
        rfl
  · rename_i que pops
    exact (ok.pop_del pops).suspend (by rw [here])

theorem HoldsAt.drain (ok : HoldsAt s (busy (some false))) (here : s.pc = .drain) :
    HoldsAll (drain s a) := by
  have at_drain : s.pc.holding = busy (some false) := by
    rw [here]
    rfl
  unfold Scan.drain
  by_cases empty : a.txEmpty = true
  · rw [if_pos empty]
    exact { ok with }
  · rw [if_neg empty]
    split
    · rename_i que pops
      exact { ok.pop_del pops with run := nofun }
    · rename_i que pops
      exact (ok.pops_abort rfl pops).elim
    · by_cases expired : a.expired = true
      · rw [if_pos expired]
        exact ok.fail (-3)
      · rw [if_neg expired]
        exact ok.suspend at_drain

theorem HoldsAt.setting (ok : HoldsAt s (busy (some false))) : HoldsAll (setting s a) := by
  unfold Scan.setting
  by_cases failed : (scanSetting s.req s.hw a).1 ≠ 0
  · rw [if_pos failed]
    exact { ok with run := nofun }
  · rw [if_neg failed]
    exact { ok with }

theorem HoldsAt.chTest (ok : HoldsAt s (busy (some true))) : HoldsAll (chTest s a) := by
  unfold Scan.chTest
  by_cases more : s.chIdx < s.req.chMap.length
  · rw [if_pos more]
    by_cases failed : a.channel ≠ .ok
    · rw [if_pos failed]
      exact ok.fail (-5)
    · rw [if_neg failed]
      dsimp only
      cases s.req.type with
      | active => exact { ok with }
      | passive => exact { ok with }
  · rw [if_neg more]
    exact { ok with }

theorem HoldsAt.probe (ok : HoldsAt s (busy (some true))) :
    HoldsAll (probe prbTimes s a) := by
  unfold Scan.probe
  by_cases more : s.retryCnt < prbTimes
  · rw [if_pos more]
    split
    · by_cases stray : s.rst ≠ 0
      · rw [if_pos stray]
        exact { ok with run := nofun }
      · rw [if_neg stray]
        exact { ok with }
    · by_cases failed : a.send ≠ 0
      · rw [if_pos failed]
        exact ok.fail (-6)
      · rw [if_neg failed]
        exact { ok with }
  · rw [if_neg more]
    exact { ok with }

theorem HoldsAt.pauseTest (ok : HoldsAt s (busy (some true))) : HoldsAll (pauseTest s a) := by
  unfold Scan.pauseTest
  by_cases pauses : a.buddy ∧ (s.chIdx + 1) % 5 = 0
  · rw [if_pos pauses]
    by_cases failed : a.channel = .fail
    · rw [if_pos failed]
      exact ok.fail (-7)
    · rw [if_neg failed]
      by_cases resumed : a.resumeBcn = true
      · simp only [resumed, if_true]
        exact { ok with }
      · simp only [resumed]
        exact { ok with }
  · rw [if_neg pauses]
    exact { ok with }

theorem HoldsAll.thrdStep (ok : HoldsAll s) : HoldsAll (thrdStep prbTimes s a) := by
  unfold HoldsAll at ok
  unfold Scan.thrdStep
  cases here : s.pc with
  | waitHw =>
      rw [here] at ok
      cases lock : s.hwLock with
      | none => exact { ok with hw := by simp [Pc.holding] }
      | some owner => exact ok.suspend (by rw [here])
  | popStart =>
      rw [here] at ok
      exact ok.popStart here
  | setReq =>
      rw [here] at ok
      exact { ok with preq := rfl }
  | cutTx =>
      rw [here] at ok
      exact { ok with tx := congrArg (· + 1) ok.tx }
  | drain =>
      rw [here] at ok
      exact HoldsAt.drain ok here
  | setting =>
      rw [here] at ok
      exact HoldsAt.setting ok
  | setRun =>
      rw [here] at ok
      exact { ok with run := fun b same => Option.some.inj same }
  | chTest =>
      rw [here] at ok
      exact HoldsAt.chTest ok
  | probe =>
      rw [here] at ok
      exact HoldsAt.probe ok
  | activeWait =>
      rw [here] at ok
      exact HoldsAt.awaitAbort ok (by rw [here]; rfl) { ok with }
  | passiveWait =>
      rw [here] at ok
      exact HoldsAt.awaitAbort ok (by rw [here]; rfl) { ok with }
  | pauseTest =>
      rw [here] at ok
      exact HoldsAt.pauseTest ok
  | pauseWait =>
      rw [here] at ok
      exact HoldsAt.awaitAbort ok (by rw [here]; rfl) { ok with }
  | pauseEnd =>
      rw [here] at ok
      dsimp only
      by_cases failed : a.mlmeScan ≠ .ok
      · rw [if_pos failed]
        exact HoldsAt.fail ok (-8)
      · rw [if_neg failed]
        exact { ok with }
  | chNext =>
      rw [here] at ok
      exact { ok with }
  | done =>
      rw [here] at ok
      exact { ok with run := nofun }
  | exit =>
      rw [here] at ok
      dsimp only
      by_cases running : s.brun = true
      · rw [if_pos running]
        exact { ok with run := fun b same => running.trans (Option.some.inj same) }
      · rw [if_neg running]
        rw [Bool.not_eq_true] at running
        exact { ok with run := fun b same => running.trans (Option.some.inj same) }
  | clearRun =>
      rw [here] at ok
      exact { ok with run := fun b same => Option.some.inj same }
  | resumeTx =>
      rw [here] at ok
      exact { ok with tx := ok.tx }
  | waitReq =>
      rw [here] at ok
      cases lock : s.reqLock with
      | none =>
          refine { ok with lock := by simp [Pc.holding], filters := ?_ }
          intro party inside
          cases lock.symm.trans (ok.filters party inside)
      | some owner => exact ok.suspend (by rw [here])
  | delReq =>
      rw [here] at ok
      have absent := ok.start_absent rfl
      refine { ok with start := fun tag => ?_, taken := ok.taken }
      dsimp only
      rw [total_wfMsgDel absent, Nat.add_assoc]
      cases tag with
      | abort => exact ok.start .abort
      | start => exact ok.start .start
  | clearReq =>
      rw [here] at ok
      exact { ok with preq := rfl }
  | postReq =>
      rw [here] at ok
      refine { ok with lock := by simp [Pc.holding], filters := ?_ }
      intro party inside
      cases (ok.lock.mpr rfl).symm.trans (ok.filters party inside)
  | unlockHw =>
      rw [here] at ok
      exact { ok with hw := by simp [Pc.holding] }
  | exited =>
      dsimp only
      exact ok

end Thread

/-! ## The callers -/

section Callers

variable {Party : Type u} {s : ScanSystem Party} {h : Holding}

/-- A message is taken from the free queue and pushed. -/
theorem HoldsAt.new_push (ok : HoldsAt s h) {hasTag : ScanTag → Bool} {msg : ScanTag}
    {que : MsgQue ScanTag} (fresh : wfMsgNew s.que hasTag = some (msg, que)) :
    HoldsAt { s with que := wfMsgPush ScanTag.urgency que msg } h := by
  obtain ⟨inside, -, popped⟩ := wfMsgNew_some fresh
  dsimp only at inside popped
  subst popped
  have once : s.que.total msg = 1 := by
    have some := total_pos_of_free inside
    have pooled := ok.start msg
    omega
  refine { ok with start := fun tag => ?_ }
  dsimp only
  rw [total_wfMsgPush (total_msgPop_self once)]
  by_cases same : tag = msg
  · subst same
    rw [if_pos rfl, total_msgPop_self once, Nat.zero_add]
    have pooled := ok.start tag
    rw [once] at pooled
    exact pooled
  · rw [if_neg same, total_msgPop_other same, Nat.add_zero]
    exact ok.start tag

theorem HoldsAll.wfScanStart (ok : HoldsAll s) (req : ScanReq) :
    HoldsAll (wfScanStart s req) := by
  unfold Scan.wfScanStart
  split
  · exact ok
  · rename_i msg que fresh
    exact { ok.new_push fresh with }

theorem HoldsAll.stopPush (ok : HoldsAll s) : HoldsAll (stopPush s) := by
  unfold Scan.stopPush
  by_cases none : s.stopping = 0
  · rw [if_pos none]
    exact ok
  · rw [if_neg none]
    dsimp only
    split
    · exact { ok with }
    · rename_i msg que fresh
      exact { ok.new_push fresh with }

theorem holdsAll_init : HoldsAll (scanInit : ScanSystem Party) where
  hw := by simp [scanInit, Pc.holding]
  lock := by simp [scanInit, Pc.holding]
  preq := rfl
  start tag := by cases tag <;> rfl
  taken := rfl
  tx := rfl
  run b same := Option.some.inj same
  filters party inside := by cases inside

variable [DecidableEq Party] {prbTimes : Nat}

/-- The places of the other filters. -/
theorem HoldsAt.leave (ok : HoldsAt s h) (party : Party) {pc : FilterPc}
    (outside : pc ≠ .inside) : HoldsAt (setFilter s party pc) h := by
  refine { ok with filters := fun other inside => ?_ }
  by_cases same : other = party
  · subst same
    rw [setFilter_self] at inside
    exact absurd inside outside
  · rw [setFilter_other _ same] at inside
    exact ok.filters other inside

theorem HoldsAll.filterTry (ok : HoldsAll s) (party : Party) :
    HoldsAll (filterTry s party) := by
  unfold Scan.filterTry
  split_ifs
  · have taken := ok.lock
    cases lock : s.reqLock with
    | none =>
        rw [lock] at taken
        refine { ok with lock := ?_, filters := fun other inside => ?_ }
        · change some (ReqOwner.filter party) = some .thread ↔ s.pc.holding.lock = true
          rw [← taken]
          simp
        · by_cases same : other = party
          · rw [same]
            rfl
          · rw [setFilter_other _ same] at inside
            cases lock.symm.trans (ok.filters other inside)
    | some owner => exact HoldsAt.leave ok party nofun
  · exact ok

theorem HoldsAll.filterPost (ok : HoldsAll s) (party : Party) :
    HoldsAll (filterPost s party) := by
  unfold Scan.filterPost
  split_ifs with inside
  · have mine := ok.filters party inside
    have taken := ok.lock
    rw [mine] at taken
    refine { ok with lock := ?_, filters := fun other inside' => ?_ }
    · change none = some ReqOwner.thread ↔ s.pc.holding.lock = true
      rw [← taken]
      simp
    · by_cases same : other = party
      · subst same
        rw [setFilter_self] at inside'
        cases inside'
      · rw [setFilter_other _ same] at inside'
        cases mine.symm.trans (ok.filters other inside')
        exact absurd rfl same
  · exact ok

theorem HoldsAll.scanStep (ok : HoldsAll s) (event : ScanEvent Party) :
    ∃ s', scanStep prbTimes s event = some s' ∧ HoldsAll s' := by
  cases event with
  | thrd a => exact ⟨_, rfl, ok.thrdStep⟩
  | spawn junk =>
      refine ⟨_, rfl, ?_⟩
      split_ifs with idle
      · unfold HoldsAll at ok
        rw [idle] at ok
        exact { ok with }
      · exact ok
  | start req => exact ⟨_, rfl, ok.wfScanStart req⟩
  | stop =>
      refine ⟨_, rfl, ?_⟩
      split_ifs
      · exact { ok with }
      · exact ok
  | stopPush => exact ⟨_, rfl, ok.stopPush⟩
  | takeHw =>
      refine ⟨_, rfl, ?_⟩
      split_ifs with free
      · have taken := ok.hw
        rw [free] at taken
        exact { ok with hw := by rw [← taken]; simp }
      · exact ok
  | freeHw =>
      refine ⟨_, rfl, ?_⟩
      split_ifs with held
      · have taken := ok.hw
        rw [held] at taken
        exact { ok with hw := by rw [← taken]; simp }
      · exact ok
  | filterTest party =>
      refine ⟨_, rfl, ?_⟩
      unfold filterTest
      split_ifs
      · exact HoldsAt.leave ok party nofun
      · exact ok
  | filterTry party => exact ⟨_, rfl, ok.filterTry party⟩
  | filterRead party => exact ⟨s, rfl, ok⟩
  | filterPost party => exact ⟨_, rfl, ok.filterPost party⟩

end Callers

/-! ## What the steps leave alone -/

section Stays

variable {Party : Type u} {s : ScanSystem Party} {a : Answers} {prbTimes : Nat}

/-- What the steps of the thread leave alone that have a function of their own. -/
structure Stays (s s' : ScanSystem Party) : Prop where
  brun : s'.brun = s.brun
  preq : s'.preq = s.preq
  filters : s'.filters = s.filters
  bssid : s'.hw.bssidMoved = s.hw.bssidMoved
  pc : s.pc ≠ .clearRun → s'.pc ≠ .clearRun

theorem awaitAbort_stays {timeout : ScanSystem Party → ScanSystem Party}
    (next : Stays s (timeout s)) :
    Stays s (awaitAbort s a timeout) := by
  unfold awaitAbort
  split
  · exact ⟨rfl, rfl, rfl, rfl, nofun⟩
  · exact ⟨rfl, rfl, rfl, rfl, id⟩
  · split_ifs
    · exact next
    · exact ⟨rfl, rfl, rfl, rfl, id⟩

theorem chTest_stays : Stays s (chTest s a) := by
  unfold chTest
  by_cases more : s.chIdx < s.req.chMap.length
  · rw [if_pos more]
    by_cases failed : a.channel ≠ .ok
    · rw [if_pos failed]
      exact ⟨rfl, rfl, rfl, rfl, nofun⟩
    · rw [if_neg failed]
      dsimp only
      cases s.req.type with
      | active => exact ⟨rfl, rfl, rfl, rfl, nofun⟩
      | passive => exact ⟨rfl, rfl, rfl, rfl, nofun⟩
  · rw [if_neg more]
    exact ⟨rfl, rfl, rfl, rfl, nofun⟩

theorem probe_stays : Stays s (probe prbTimes s a) := by
  unfold probe
  by_cases more : s.retryCnt < prbTimes
  · rw [if_pos more]
    split
    · by_cases stray : s.rst ≠ 0
      · rw [if_pos stray]
        exact ⟨rfl, rfl, rfl, rfl, nofun⟩
      · rw [if_neg stray]
        exact ⟨rfl, rfl, rfl, rfl, nofun⟩
    · by_cases failed : a.send ≠ 0
      · rw [if_pos failed]
        exact ⟨rfl, rfl, rfl, rfl, nofun⟩
      · rw [if_neg failed]
        exact ⟨rfl, rfl, rfl, rfl, nofun⟩
  · rw [if_neg more]
    exact ⟨rfl, rfl, rfl, rfl, nofun⟩

theorem pauseTest_stays : Stays s (pauseTest s a) := by
  unfold pauseTest
  by_cases pauses : a.buddy ∧ (s.chIdx + 1) % 5 = 0
  · rw [if_pos pauses]
    by_cases failed : a.channel = .fail
    · rw [if_pos failed]
      exact ⟨rfl, rfl, rfl, rfl, nofun⟩
    · rw [if_neg failed]
      refine ⟨rfl, rfl, rfl, ?_, fun _ => ?_⟩
      · dsimp only
        split_ifs
        all_goals rfl
      · by_cases resumed : a.resumeBcn = true
        · simp [resumed]
        · simp [resumed]
  · rw [if_neg pauses]
    exact ⟨rfl, rfl, rfl, rfl, nofun⟩

theorem popStart_stays : Stays s (popStart s a) := by
  unfold popStart
  split
  · exact ⟨rfl, rfl, rfl, rfl, nofun⟩
  · exact ⟨rfl, rfl, rfl, rfl, nofun⟩
  · exact ⟨rfl, rfl, rfl, rfl, id⟩

theorem drain_stays : Stays s (drain s a) := by
  unfold drain
  by_cases empty : a.txEmpty = true
  · rw [if_pos empty]
    exact ⟨rfl, rfl, rfl, rfl, nofun⟩
  · rw [if_neg empty]
    split
    · exact ⟨rfl, rfl, rfl, rfl, nofun⟩
    · split_ifs
      · exact ⟨rfl, rfl, rfl, rfl, nofun⟩
      · exact ⟨rfl, rfl, rfl, rfl, id⟩
    · split_ifs
      · exact ⟨rfl, rfl, rfl, rfl, nofun⟩
      · exact ⟨rfl, rfl, rfl, rfl, id⟩

end Stays

section Aside

variable {Party : Type u} {s s' : ScanSystem Party}

/-- What belongs to the thread, and the request while the thread has it. -/
structure Aside (s s' : ScanSystem Party) : Prop where
  pc : s'.pc = s.pc
  reason : s'.reason = s.reason
  chIdx : s'.chIdx = s.chIdx
  prsn : s'.prsn = s.prsn
  brun : s'.brun = s.brun
  preq : s'.preq = s.preq
  hw : s'.hw = s.hw
  cause : s'.cause = s.cause
  target : s'.target = s.target
  scanned : s'.scanned = s.scanned
  req : s.que.total .start = 0 → s'.req = s.req

theorem Aside.refl (s : ScanSystem Party) : Aside s s :=
  ⟨rfl, rfl, rfl, rfl, rfl, rfl, rfl, rfl, rfl, rfl, fun _ => rfl⟩

theorem wfScanStart_aside (req : ScanReq) : Aside s (wfScanStart s req) := by
  unfold wfScanStart
  split
  · exact .refl s
  · rename_i msg que fresh
    refine ⟨rfl, rfl, rfl, rfl, rfl, rfl, rfl, rfl, rfl, rfl, fun absent => ?_⟩
    obtain ⟨inside, isStart, -⟩ := wfMsgNew_some fresh
    cases of_decide_eq_true isStart
    have some := total_pos_of_free inside
    rw [absent] at some
    exact absurd some (by decide)

theorem stopPush_aside : Aside s (stopPush s) := by
  unfold stopPush
  by_cases none : s.stopping = 0
  · rw [if_pos none]
    exact .refl s
  · rw [if_neg none]
    dsimp only
    split
    · exact { Aside.refl s with }
    · exact { Aside.refl s with }

variable [DecidableEq Party]

theorem filterTry_aside (party : Party) : Aside s (filterTry s party) := by
  unfold filterTry
  split_ifs
  · cases s.reqLock with
    | none => exact { Aside.refl s with }
    | some owner => exact { Aside.refl s with }
  · exact .refl s

/-- Every event but those of the thread leaves it alone. -/
theorem scanStep_aside (prbTimes : Nat) (s : ScanSystem Party) (event : ScanEvent Party) :
    (∃ a, event = .thrd a) ∨ (∃ junk, event = .spawn junk) ∨
      ∃ s', scanStep prbTimes s event = some s' ∧ Aside s s' := by
  cases event with
  | thrd a => exact .inl ⟨a, rfl⟩
  | spawn junk => exact .inr (.inl ⟨junk, rfl⟩)
  | start req => exact .inr (.inr ⟨_, rfl, wfScanStart_aside req⟩)
  | stop =>
      refine .inr (.inr ⟨_, rfl, ?_⟩)
      split_ifs
      · exact { Aside.refl s with }
      · exact .refl s
  | stopPush => exact .inr (.inr ⟨_, rfl, stopPush_aside⟩)
  | takeHw | freeHw =>
      refine .inr (.inr ⟨_, rfl, ?_⟩)
      split_ifs
      · exact { Aside.refl s with }
      · exact .refl s
  | filterTest party =>
      refine .inr (.inr ⟨_, rfl, ?_⟩)
      unfold filterTest
      split_ifs
      · exact { Aside.refl s with }
      · exact .refl s
  | filterTry party => exact .inr (.inr ⟨_, rfl, filterTry_aside party⟩)
  | filterRead party => exact .inr (.inr ⟨s, rfl, .refl s⟩)
  | filterPost party =>
      refine .inr (.inr ⟨_, rfl, ?_⟩)
      unfold filterPost
      split_ifs
      · exact { Aside.refl s with }
      · exact .refl s

end Aside

/-! ## The settings -/

section Settings

variable {Party : Type u} {s s' : ScanSystem Party} {a : Answers} {prbTimes : Nat}

/-- What can be put back is applied only in a scan that is going on. -/
structure SettingsOk (s : ScanSystem Party) : Prop where
  running : s.hw.recoverable = true → s.pc = .setRun ∨ s.brun = true ∧ s.pc ≠ .clearRun
  bssid : s.hw.bssidMoved = false

/-- No call of `scan_setting` fails behind one that has taken effect, and the BSSID is the
one that the filter has. -/
def SettingSpares (req : ScanReq) (a : Answers) : Prop :=
  if req.type = .passive then a.mediaStatus = .ok → a.mlmeScan = .ok ∧ a.backup = .ok
  else if isValidBssid req.bssid.toList then a.bssid = .ok → req.bssid = a.filterBssid
  else a.mlmeScan = .ok → a.backup = .ok

instance (req : ScanReq) (a : Answers) : Decidable (SettingSpares req a) :=
  inferInstanceAs (Decidable (
    if req.type = .passive then a.mediaStatus = .ok → a.mlmeScan = .ok ∧ a.backup = .ok
    else if isValidBssid req.bssid.toList then a.bssid = .ok → req.bssid = a.filterBssid
    else a.mlmeScan = .ok → a.backup = .ok))

/-- `scan_setting` spares what cannot be put back, and the calls of `scan_setting_recover`
succeed. -/
def SparesSettings (s : ScanSystem Party) : ScanEvent Party → Prop
  | .thrd a =>
      (s.pc = .setting → SettingSpares s.req a) ∧
      (s.pc = .exit → s.brun = true →
        a.mediaStatus = .ok ∧ a.channel = .ok ∧ a.mlmeScan = .ok)
  | _ => True

instance (s : ScanSystem Party) (event : ScanEvent Party) :
    Decidable (SparesSettings s event) :=
  match event with
  | .thrd _ => inferInstanceAs (Decidable (_ ∧ _))
  | .spawn _ | .start _ | .stop | .stopPush | .takeHw | .freeHw | .filterTest _
  | .filterTry _ | .filterRead _ | .filterPost _ => isTrue trivial

theorem SettingsOk.unapplied (ok : SettingsOk s) (notSet : s.pc ≠ .setRun)
    (idle : s.brun = false ∨ s.pc = .clearRun) : s.hw.applied = false := by
  unfold Settings.applied
  rw [ok.bssid, Bool.or_false, ← Bool.not_eq_true]
  intro applied
  obtain here | ⟨running, elsewhere⟩ := ok.running applied
  · exact notSet here
  · cases idle with
    | inl idle => cases idle.symm.trans running
    | inr here => exact elsewhere here

theorem settingsOk_of_unapplied (unapplied : s.hw.applied = false) (same : s'.hw = s.hw) :
    SettingsOk s' := by
  rw [Settings.applied, Bool.or_eq_false_iff] at unapplied
  constructor
  · rw [same, unapplied.1]
    exact nofun
  · rw [same]
    exact unapplied.2

theorem popStart_hw : (popStart s a).hw = s.hw := by
  unfold popStart
  split <;> rfl

theorem drain_hw : (drain s a).hw = s.hw := by
  unfold drain
  split_ifs
  · rfl
  · split
    · rfl
    · rfl
    · rfl
  · split
    · rfl
    · rfl
    · rfl

theorem fixChannel_bssid (req : ScanReq) (found : Option UInt8) :
    (fixChannel req found).bssid = req.bssid := by
  unfold fixChannel
  split
  · split_ifs <;> rfl
  · rfl

theorem settingEnd_settings (req : ScanReq) (hw : Settings) (a : Answers) :
    (settingEnd req hw a).2.2 = hw := by
  unfold settingEnd
  dsimp only
  by_cases failed : a.backup ≠ .ok
  · rw [if_pos failed]
  · rw [if_neg failed]

theorem settingEnd_succeeds {req : ScanReq} {hw : Settings} (backup : a.backup = .ok) :
    (settingEnd req hw a).1 = 0 := by
  simp [settingEnd, backup]

/-- An unapplied setting is still so behind a failure. -/
theorem SettingSpares.spared {req : ScanReq} {hw : Settings} (spares : SettingSpares req a)
    (unapplied : hw.applied = false) :
    (scanSetting req hw a).2.2.bssidMoved = false ∧
      ((scanSetting req hw a).1 ≠ 0 → (scanSetting req hw a).2.2.applied = false) := by
  have same : hw.bssidMoved = false := (Bool.or_eq_false_iff.1 unapplied).2
  unfold SettingSpares at spares
  unfold scanSetting
  cases type : req.type with
  | passive =>
      rw [if_pos type] at spares
      dsimp only
      split_ifs with media filter
      · exact ⟨same, fun _ => unapplied⟩
      · exact absurd (spares (not_not.1 media)).1 filter
      · rw [settingEnd_settings]
        exact ⟨same, absurd (settingEnd_succeeds (spares (not_not.1 media)).2)⟩
  | active =>
      rw [if_neg (by simp [type])] at spares
      dsimp only
      split_ifs at spares ⊢ with valid bssid filter
      · exact ⟨same, fun _ => unapplied⟩
      · have still : ({ hw with bssidMoved := hw.bssidMoved || req.bssid ≠ a.filterBssid } :
            Settings) = hw := by
          rw [spares (not_not.1 bssid)]
          simp
        rw [fixChannel_bssid, still, settingEnd_settings]
        exact ⟨same, fun _ => unapplied⟩
      · exact ⟨same, fun _ => unapplied⟩
      · rw [settingEnd_settings]
        exact ⟨same, absurd (settingEnd_succeeds (spares (not_not.1 filter)))⟩

theorem SettingsOk.setting (spares : SettingSpares s.req a) (bare : s.hw.applied = false) :
    SettingsOk (setting s a) := by
  obtain ⟨bssid, unapplied⟩ := spares.spared bare
  unfold Scan.setting
  by_cases failed : (scanSetting s.req s.hw a).1 ≠ 0
  · rw [if_pos failed]
    exact settingsOk_of_unapplied (s := { s with hw := (scanSetting s.req s.hw a).2.2 })
      (unapplied failed) rfl
  · rw [if_neg failed]
    exact ⟨fun _ => .inl rfl, bssid⟩

theorem recover_unapplied {hw : Settings} (media : a.mediaStatus = .ok)
    (channel : a.channel = .ok) (filter : a.mlmeScan = .ok) (bssid : hw.bssidMoved = false) :
    (scanSettingRecover hw a).applied = false := by
  unfold scanSettingRecover
  rw [media, channel, filter]
  exact bssid

theorem SettingsOk.thrdStep (ok : SettingsOk s) (holds : HoldsAll s)
    (spares : SparesSettings s (.thrd a)) : SettingsOk (thrdStep prbTimes s a) := by
  unfold HoldsAll at holds
  have loop {s' : ScanSystem Party} (run : s.brun = true) (elsewhere : s.pc ≠ .clearRun)
      (stays : Stays s s') : SettingsOk s' :=
    ⟨fun _ => .inr ⟨stays.brun.trans run, stays.pc elsewhere⟩, stays.bssid.trans ok.bssid⟩
  obtain ⟨whole, recovers⟩ := spares
  unfold Scan.thrdStep
  cases here : s.pc with
  | waitHw =>
      have bare := ok.unapplied (by simp [here]) (.inl (holds.run false (by rw [here]; rfl)))
      cases s.hwLock with
      | none => exact settingsOk_of_unapplied bare rfl
      | some owner => exact settingsOk_of_unapplied bare rfl
  | popStart =>
      have bare := ok.unapplied (by simp [here]) (.inl (holds.run false (by rw [here]; rfl)))
      exact settingsOk_of_unapplied bare popStart_hw
  | setReq | cutTx =>
      have bare := ok.unapplied (by simp [here]) (.inl (holds.run false (by rw [here]; rfl)))
      exact settingsOk_of_unapplied bare rfl
  | drain =>
      have bare := ok.unapplied (by simp [here]) (.inl (holds.run false (by rw [here]; rfl)))
      exact settingsOk_of_unapplied bare drain_hw
  | setting =>
      have bare := ok.unapplied (by simp [here]) (.inl (holds.run false (by rw [here]; rfl)))
      exact SettingsOk.setting (whole here) bare
  | setRun => exact ⟨fun _ => .inr ⟨rfl, nofun⟩, ok.bssid⟩
  | chTest => exact loop (holds.run true (by rw [here]; rfl)) (by simp [here]) chTest_stays
  | probe => exact loop (holds.run true (by rw [here]; rfl)) (by simp [here]) probe_stays
  | activeWait | passiveWait | pauseWait =>
      exact loop (holds.run true (by rw [here]; rfl)) (by simp [here])
        (awaitAbort_stays ⟨rfl, rfl, rfl, rfl, nofun⟩)
  | pauseTest =>
      exact loop (holds.run true (by rw [here]; rfl)) (by simp [here]) pauseTest_stays
  | pauseEnd =>
      refine loop (holds.run true (by rw [here]; rfl)) (by simp [here]) ?_
      dsimp only
      by_cases failed : a.mlmeScan ≠ .ok
      · rw [if_pos failed]
        exact ⟨rfl, rfl, rfl, rfl, nofun⟩
      · rw [if_neg failed]
        exact ⟨rfl, rfl, rfl, rfl, nofun⟩
  | chNext | done =>
      exact loop (holds.run true (by rw [here]; rfl)) (by simp [here]) ⟨rfl, rfl, rfl, rfl, nofun⟩
  | exit =>
      dsimp only
      by_cases running : s.brun = true
      · rw [if_pos running]
        obtain ⟨media, channel, filter⟩ := recovers here running
        exact settingsOk_of_unapplied (s := { s with hw := scanSettingRecover s.hw a })
          (recover_unapplied media channel filter ok.bssid) rfl
      · rw [if_neg running]
        rw [Bool.not_eq_true] at running
        exact settingsOk_of_unapplied (ok.unapplied (by simp [here]) (.inl running)) rfl
  | clearRun =>
      exact settingsOk_of_unapplied (ok.unapplied (by simp [here]) (.inr here)) rfl
  | resumeTx | delReq | clearReq | postReq | unlockHw | exited =>
      have bare := ok.unapplied (by simp [here]) (.inl (holds.run false (by rw [here]; rfl)))
      exact settingsOk_of_unapplied bare rfl
  | waitReq =>
      have bare := ok.unapplied (by simp [here]) (.inl (holds.run false (by rw [here]; rfl)))
      cases s.reqLock with
      | none => exact settingsOk_of_unapplied bare rfl
      | some owner => exact settingsOk_of_unapplied bare rfl

theorem SettingsOk.aside (ok : SettingsOk s) (aside : Aside s s') : SettingsOk s' := by
  constructor
  · rw [aside.hw, aside.pc, aside.brun]
    exact ok.running
  · rw [aside.hw]
    exact ok.bssid

variable [DecidableEq Party]

theorem SettingsOk.scanStep (ok : SettingsOk s) (holds : HoldsAll s)
    {event : ScanEvent Party} (spares : SparesSettings s event)
    (hstep : scanStep prbTimes s event = some s') : SettingsOk s' := by
  rcases scanStep_aside prbTimes s event with
    ⟨a, rfl⟩ | ⟨junk, rfl⟩ | ⟨other, hother, aside⟩
  · cases hstep
    exact ok.thrdStep holds spares
  · cases hstep
    split_ifs with idle
    · have bare := ok.unapplied (by simp [idle]) (.inl (holds.run false (by rw [idle]; rfl)))
      exact settingsOk_of_unapplied bare rfl
    · exact ok
  · cases hother.symm.trans hstep
    exact ok.aside aside

end Settings

/-! ## The exit -/

section Exit

variable {Party : Type u}

/-- What is left behind at the exit.  The locks may have been taken by others, and
`wf_scan_start` may already have taken the START message again. -/
structure Clean (s : ScanSystem Party) : Prop where
  tx : s.txCut = s.txResumed
  settings : s.hw.applied = false
  brun : s.brun = false
  start : s.taken = s.returned ∧ s.que.total .start = 1
  preq : s.preq = false
  reqLock : s.reqLock ≠ some .thread
  hwLock : s.hwLock ≠ some .thread

theorem clean_of_exited {s : ScanSystem Party} (holds : HoldsAll s) (ok : SettingsOk s)
    (exited : s.pc = .exited) : Clean s := by
  unfold HoldsAll at holds
  rw [exited] at holds
  have idle : s.brun = false := holds.run false rfl
  exact {
    tx := holds.tx
    settings := ok.unapplied (by simp [exited]) (.inl idle)
    brun := idle
    start := ⟨holds.taken, holds.start .start⟩
    preq := holds.preq
    reqLock := fun mine => nomatch holds.lock.mp mine
    hwLock := fun mine => nomatch holds.hw.mp mine }

end Exit

theorem scan_cleanup {Party : Type u} [DecidableEq Party] (prbTimes : Nat)
    (events : List (ScanEvent Party))
    (spared : EachStep (scanStep prbTimes) SparesSettings scanInit events) :
    Throughout (scanStep prbTimes) (fun s => s.pc = .exited → Clean s) scanInit events := by
  refine spared.throughout (fun s => HoldsAll s ∧ SettingsOk s) ?_ ?_ ⟨holdsAll_init, nofun, rfl⟩
  · rintro s ⟨holds, ok⟩ exited
    exact clean_of_exited holds ok exited
  · rintro s event ⟨holds, ok⟩ spares
    obtain ⟨s', hstep, holds'⟩ := holds.scanStep event
    exact ⟨s', hstep, holds', ok.scanStep holds spares hstep⟩

/-- Every call succeeds and every wait is over. -/
def granted : Answers where
  txEmpty := true
  expired := true
  mediaStatus := .ok
  mlmeScan := .ok
  bssid := .ok
  filterBssid := Vector.replicate 6 0
  backup := .ok
  channel := .ok
  found := none
  channelSet := [1, 6, 11]
  p2p := none
  send := 0
  buddy := false
  resumeBcn := false
  junk := 0

def passiveReq : ScanReq := ⟨.passive, Vector.replicate 6 0, [], [6]⟩

/-- A passive scan of one channel, from its request to the exit of the thread. -/
def passiveScan (a : Answers) : List (ScanEvent Unit) :=
  [ScanEvent.start passiveReq, .spawn 0] ++ List.replicate 21 (ScanEvent.thrd a)

theorem scan_cleanup_passive :
    EachStep (scanStep 2) SparesSettings scanInit (passiveScan granted) ∧
      Throughout (scanStep 2) (fun s => s.pc = .exited → Clean s) scanInit
        (passiveScan granted) := by
  have spared : EachStep (scanStep 2) SparesSettings scanInit (passiveScan granted) := by
    decide +kernel
  exact ⟨spared, scan_cleanup 2 _ spared⟩

/-- The media status is set, the filter cannot be, and nobody puts the status back. -/
theorem scan_cleanup_lost_setting :
    ¬ Throughout (scanStep 2) (fun s => s.pc = .exited → Clean s) scanInit
      (passiveScan { granted with mlmeScan := .fail }) := by
  intro cleans
  obtain ⟨s, reached, clean⟩ := cleans.final
  have found : (run (scanStep 2) scanInit
      (passiveScan { granted with mlmeScan := .fail })).all (fun s =>
        decide (s.pc = .exited ∧ s.hw.applied = true)) = true := by decide +kernel
  rw [reached, Option.all_some, decide_eq_true_iff] at found
  cases found.2.symm.trans (clean found.1).settings

end Smartchip.Scan
