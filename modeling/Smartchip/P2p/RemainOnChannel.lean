import Mathlib.Algebra.Group.Nat.Defs
import Mathlib.Data.List.Basic
import Smartchip.Foundation.Run

/-!
# Remaining on a channel

`wf_p2p_remain_on_channel` and `wf_p2p_cannel_remain_on_channel` of `nic/p2p/p2p_proto_mgt.c`,
and the handler of `remain_ch_timer` in `nic/p2p/p2p.c`.  The interface shares its hardware with
a buddy.
-/

namespace Smartchip.P2p

open Smartchip.Foundation

inductive P2pState where
  | none | idle | listen | scan | findPhaseListen | findPhaseSearch | txProvisionDisReq
  | rxProvisionDisRsp | rxProvisionDisReq | gonegoIng | gonegoOk | gonegoFail
  | recvInviteReqMatch | provisioningIng | provisioningDone | txInviteReq | rxInviteRespOk
  | recvInviteReqDismatch | recvInviteReqGo | recvInviteReqJoin | rxInviteRespFail
  | rxInforNoready | txInforNoready | eapolDone
  deriving DecidableEq

/-- What happens to the periods; a timer that fires in none is `stale`. -/
inductive RoMark where
  | started
  | expired
  | stale
  deriving DecidableEq

/-- An explicit cancel that ended a period, and the channel behind it. -/
structure RoCancel where
  buddyCh : UInt8
  goNegoing : UInt32
  hwCh : UInt8

/-- The callback `remain_on_channel_expired` is there, and `buddy` is the channel of the
buddy's own WDN. -/
structure RoState where
  isRoCh : Bool
  roChAgain : UInt8
  remainCh : UInt8
  roChDuration : UInt32
  lastRoChTime : UInt32
  goNegoing : UInt32
  p2pState : P2pState
  preP2pState : P2pState
  remainChTimer : Option UInt32
  buddy : Option UInt8
  hwCh : UInt8
  curChannel : UInt8
  marks : List RoMark
  cancels : List RoCancel

namespace RoState

def wfP2pGetBuddyChannel (s : RoState) : UInt8 := s.buddy.getD 0

def wfP2pSetState (s : RoState) (state : P2pState) : RoState :=
  if s.p2pState ≠ state then { s with p2pState := state, preP2pState := s.p2pState } else s

def hwInfoSetChannnelBw (s : RoState) (channel : UInt8) : RoState := { s with hwCh := channel }

/-- The channel that a cancel sets or leaves when `ro_ch_again` is not set. -/
def restoredCh (buddyCh hwCh : UInt8) (goNegoing : UInt32) : UInt8 :=
  if buddyCh ≠ 0 then
    if goNegoing = 0 then
      if hwCh ≠ buddyCh then buddyCh else hwCh
    else if goNegoing &&& (1 : UInt32) <<< 2 ≠ 0 ∨ goNegoing &&& (1 : UInt32) <<< 4 ≠ 0 then
      if hwCh ≠ buddyCh then buddyCh else hwCh
    else hwCh
  else hwCh

def wfP2pCannelRemainOnChannel (s : RoState) : RoState :=
  if s.isRoCh = false then s
  else
    let s := { s with isRoCh := false }
    let s := if s.roChAgain = 0 then
        s.hwInfoSetChannnelBw (restoredCh s.wfP2pGetBuddyChannel s.hwCh s.goNegoing)
      else { s with roChAgain := 0 }
    let s := { s with marks := s.marks ++ [RoMark.expired] }
    { s.wfP2pSetState s.preP2pState with lastRoChTime := 0 }

/-- The loop that makes a duration at least 400; six rounds are enough. -/
def enlarged : Nat → UInt32 → UInt32
  | 0, duration => duration
  | fuel + 1, duration =>
      if 0 < duration ∧ duration < 400 then enlarged fuel (duration * 3) else duration

def wfP2pRemainOnChannel (s : RoState) (now : UInt32) : RoState :=
  let s := { s with
    isRoCh := true
    marks := if s.isRoCh then s.marks else s.marks ++ [RoMark.started] }
  let s := if s.hwCh ≠ s.remainCh then
      { s with curChannel := s.remainCh }.hwInfoSetChannnelBw s.remainCh
    else s
  let s := s.wfP2pSetState .listen
  let s := { s with roChDuration := enlarged 6 s.roChDuration }
  { s with remainChTimer := some s.roChDuration, lastRoChTime := now }

def p2pRoChTimerHandle (s : RoState) : RoState :=
  let s := { s with
    roChAgain := 1
    marks := if s.isRoCh then s.marks else s.marks ++ [RoMark.stale] }
  s.wfP2pCannelRemainOnChannel

/-- The two callers outside of the timer. -/
def explicitCancel (s : RoState) : RoState :=
  let s' := s.wfP2pCannelRemainOnChannel
  if s.isRoCh then
    { s' with cancels := s'.cancels ++ [⟨s.wfP2pGetBuddyChannel, s.goNegoing, s'.hwCh⟩] }
  else s'

end RoState

/-- Beside the calls, the buddy connects, roams and leaves, negotiations begin and end, and the
channel and the state are set by others. -/
inductive RoEvent where
  | remain (remainCh : UInt8) (duration now : UInt32)
  | cancel
  | fire
  | buddy (wdn : Option UInt8)
  | nego (bits : UInt32)
  | tune (channel : UInt8)
  | state (state : P2pState)

open RoState in
/-- A timer that is not armed does not fire. -/
def roStep (s : RoState) : RoEvent → Option RoState
  | .remain remainCh duration now =>
      some ({ s with remainCh := remainCh, roChDuration := duration }.wfP2pRemainOnChannel now)
  | .cancel => some s.explicitCancel
  | .fire => some (if s.remainChTimer.isSome then
      { s with remainChTimer := none }.p2pRoChTimerHandle else s)
  | .buddy wdn => some { s with buddy := wdn }
  | .nego bits => some { s with goNegoing := bits }
  | .tune channel => some { s with hwCh := channel }
  | .state state => some (s.wfP2pSetState state)

def roStart : RoState where
  isRoCh := false
  roChAgain := 0
  remainCh := 0
  roChDuration := 0
  lastRoChTime := 0
  goNegoing := 0
  p2pState := .none
  preP2pState := .none
  remainChTimer := none
  buddy := none
  hwCh := 1
  curChannel := 1
  marks := []
  cancels := []

/-! ## What is to hold -/

/-- The marks of `ended` periods, and of one that has not ended if it is `active`. -/
def PeriodsOf (marks : List RoMark) (active : Bool) : Prop :=
  ∃ ended, marks.filter (· ≠ .stale) =
    (List.replicate ended [RoMark.started, .expired]).flatten ++
      if active then [.started] else []

/-- Every period that started was ended once before the next one, but for the last one, whose
end the timer is armed for. -/
structure RoKept (s : RoState) : Prop where
  periods : PeriodsOf s.marks s.isRoCh
  armed : s.isRoCh = true → s.remainChTimer.isSome
  restored : ∀ c ∈ s.cancels, c.buddyCh ≠ 0 → c.goNegoing = 0 → c.hwCh = c.buddyCh

/-- A cancel that is to restore the channel finds `ro_ch_again` clear, or the channel there. -/
def RoAllowed (s : RoState) : RoEvent → Prop
  | .cancel => s.isRoCh = true → s.wfP2pGetBuddyChannel ≠ 0 → s.goNegoing = 0 →
      s.roChAgain = 0 ∨ s.hwCh = s.wfP2pGetBuddyChannel
  | _ => True

/-! ## Steps -/

/-- A duration in the loop's range has left it behind six rounds. -/
theorem enlarged_leaves (duration : UInt32) :
    ¬ (0 < RoState.enlarged 6 duration ∧ RoState.enlarged 6 duration < 400) := by
  by_cases inside : 0 < duration ∧ duration < 400
  · have below : duration.toNat < 400 := inside.2
    have all : ∀ n : Fin 400, ¬ (0 < RoState.enlarged 6 (UInt32.ofNat n) ∧
        RoState.enlarged 6 (UInt32.ofNat n) < 400) := by decide +kernel
    simpa only [UInt32.ofNat_toNat] using all ⟨duration.toNat, below⟩
  · simp [RoState.enlarged, inside]

namespace RoState

variable (s : RoState)

theorem wfP2pSetState_same (state : P2pState) :
    s.wfP2pSetState state = { s with
      p2pState := (s.wfP2pSetState state).p2pState
      preP2pState := (s.wfP2pSetState state).preP2pState } := by
  unfold wfP2pSetState
  split_ifs <;> rfl

/-- With no negotiation, the buddy's channel is the one behind it. -/
theorem restoredCh_quiet {buddyCh : UInt8} (hwCh : UInt8) (connected : buddyCh ≠ 0) :
    restoredCh buddyCh hwCh 0 = buddyCh := by
  by_cases there : hwCh = buddyCh <;> simp [restoredCh, connected, there]

/-- What a cancel does to what the property is about. -/
theorem cancel_cases :
    s.isRoCh = false ∧ s.wfP2pCannelRemainOnChannel = s ∨
      s.isRoCh = true ∧ s.wfP2pCannelRemainOnChannel.isRoCh = false ∧
        s.wfP2pCannelRemainOnChannel.roChAgain = 0 ∧
        s.wfP2pCannelRemainOnChannel.remainChTimer = s.remainChTimer ∧
        s.wfP2pCannelRemainOnChannel.marks = s.marks ++ [.expired] ∧
        s.wfP2pCannelRemainOnChannel.cancels = s.cancels ∧
        s.wfP2pCannelRemainOnChannel.hwCh =
          if s.roChAgain = 0 then restoredCh s.wfP2pGetBuddyChannel s.hwCh s.goNegoing
          else s.hwCh := by
  cases active : s.isRoCh with
  | false => simp [wfP2pCannelRemainOnChannel, active]
  | true =>
      refine .inr ⟨rfl, ?_⟩
      simp only [wfP2pCannelRemainOnChannel, active, Bool.true_eq_false, if_false]
      rw [wfP2pSetState_same]
      by_cases again : s.roChAgain = 0 <;>
        simp [again, hwInfoSetChannnelBw, wfP2pGetBuddyChannel]

/-- A timer that fires in no period is the only one to set `ro_ch_again`. -/
theorem handle_cases :
    s.isRoCh = false ∧ s.p2pRoChTimerHandle =
        { s with roChAgain := 1, marks := s.marks ++ [.stale] } ∨
      s.isRoCh = true ∧ s.p2pRoChTimerHandle.isRoCh = false ∧
        s.p2pRoChTimerHandle.roChAgain = 0 ∧
        s.p2pRoChTimerHandle.marks = s.marks ++ [.expired] ∧
        s.p2pRoChTimerHandle.cancels = s.cancels := by
  cases active : s.isRoCh with
  | false => simp [p2pRoChTimerHandle, wfP2pCannelRemainOnChannel, active]
  | true =>
      simp only [p2pRoChTimerHandle, active, if_true]
      rcases cancel_cases { s with roChAgain := 1 } with
        ⟨idle, -⟩ | ⟨-, ended, again, -, marks, cancels, -⟩
      · simp [active] at idle
      · simp [active] at ended again marks cancels
        simp [ended, again, marks, cancels]

theorem remain_spec (now : UInt32) :
    (s.wfP2pRemainOnChannel now).isRoCh = true ∧
      (s.wfP2pRemainOnChannel now).remainChTimer.isSome ∧
      (s.wfP2pRemainOnChannel now).roChAgain = s.roChAgain ∧
      (s.wfP2pRemainOnChannel now).marks =
        (if s.isRoCh then s.marks else s.marks ++ [.started]) ∧
      (s.wfP2pRemainOnChannel now).cancels = s.cancels := by
  simp only [wfP2pRemainOnChannel]
  rw [wfP2pSetState_same]
  simp only [hwInfoSetChannnelBw]
  split_ifs <;> simp

end RoState

/-! ## The periods -/

section Periods

variable {marks : List RoMark}

theorem PeriodsOf.start (periods : PeriodsOf marks false) :
    PeriodsOf (marks ++ [.started]) true := by
  obtain ⟨ended, eq⟩ := periods
  exact ⟨ended, by simpa using eq⟩

theorem PeriodsOf.expire (periods : PeriodsOf marks true) :
    PeriodsOf (marks ++ [.expired]) false := by
  obtain ⟨ended, eq⟩ := periods
  refine ⟨ended + 1, ?_⟩
  rw [List.replicate_succ', List.flatten_append, List.filter_append, eq]
  simp

theorem PeriodsOf.stale {active : Bool} (periods : PeriodsOf marks active) :
    PeriodsOf (marks ++ [.stale]) active := by
  obtain ⟨ended, eq⟩ := periods
  exact ⟨ended, by simpa using eq⟩

end Periods

/-! ## Runs -/

section Runs

variable {s : RoState}

/-- The end of a period by an explicit cancel, as it is kept. -/
theorem explicitCancel_cases (s : RoState) :
    s.isRoCh = false ∧ s.explicitCancel = s ∨
      s.isRoCh = true ∧ s.explicitCancel.isRoCh = false ∧
        s.explicitCancel.marks = s.marks ++ [.expired] ∧
        s.explicitCancel.cancels = s.cancels ++ [⟨s.wfP2pGetBuddyChannel, s.goNegoing,
          if s.roChAgain = 0 then
            RoState.restoredCh s.wfP2pGetBuddyChannel s.hwCh s.goNegoing
          else s.hwCh⟩] := by
  rcases s.cancel_cases with ⟨idle, same⟩ | ⟨active, ended, -, -, marks, cancels, hwCh⟩
  · exact .inl ⟨idle, by simp [RoState.explicitCancel, idle, same]⟩
  · refine .inr ⟨active, ?_⟩
    simp [RoState.explicitCancel, active, ended, marks, cancels, hwCh]

theorem RoKept.cancel (kept : RoKept s)
    (allowed : s.isRoCh = true → s.wfP2pGetBuddyChannel ≠ 0 → s.goNegoing = 0 →
      s.roChAgain = 0 ∨ s.hwCh = s.wfP2pGetBuddyChannel) : RoKept s.explicitCancel := by
  rcases explicitCancel_cases s with ⟨-, same⟩ | ⟨active, ended, marks, cancels⟩
  · rw [same]
    exact kept
  · have periods := kept.periods
    rw [active] at periods
    refine ⟨?_, by simp [ended], ?_⟩
    · rw [ended, marks]
      exact periods.expire
    · rw [cancels]
      intro c member connected quiet
      rcases List.mem_append.mp member with old | new
      · exact kept.restored c old connected quiet
      · rw [List.mem_singleton.mp new] at connected quiet ⊢
        dsimp only at connected quiet ⊢
        split_ifs with again
        · rw [quiet]
          exact RoState.restoredCh_quiet s.hwCh connected
        · exact (allowed active connected quiet).resolve_left again

theorem RoKept.fire (kept : RoKept s) :
    RoKept { s with remainChTimer := none }.p2pRoChTimerHandle := by
  rcases RoState.handle_cases { s with remainChTimer := none } with
    ⟨idle, handled⟩ | ⟨active, ended, -, marks, cancels⟩
  · have periods := kept.periods
    change s.isRoCh = false at idle
    rw [handled]
    exact ⟨periods.stale, by simp [idle], kept.restored⟩
  · have periods := kept.periods
    rw [show s.isRoCh = true from active] at periods
    refine ⟨?_, by simp [ended], ?_⟩
    · rw [ended, marks]
      exact periods.expire
    · rw [cancels]
      exact kept.restored

theorem RoKept.remain (kept : RoKept s) (remainCh : UInt8) (duration now : UInt32) :
    RoKept ({ s with
      remainCh := remainCh, roChDuration := duration }.wfP2pRemainOnChannel now) := by
  obtain ⟨active, armed, -, marks, cancels⟩ := RoState.remain_spec
    { s with remainCh := remainCh, roChDuration := duration } now
  refine ⟨?_, fun _ => armed, ?_⟩
  · have periods := kept.periods
    rw [active, marks]
    cases was : s.isRoCh with
    | false =>
        rw [was] at periods
        exact periods.start
    | true =>
        rw [was] at periods
        exact periods
  · rw [cancels]
    exact kept.restored

theorem RoKept.step {event : RoEvent} (kept : RoKept s) (allowed : RoAllowed s event) :
    ∃ next, roStep s event = some next ∧ RoKept next := by
  cases event with
  | remain remainCh duration now => exact ⟨_, rfl, kept.remain remainCh duration now⟩
  | cancel => exact ⟨_, rfl, kept.cancel allowed⟩
  | fire =>
      refine ⟨_, rfl, ?_⟩
      split_ifs
      · exact kept.fire
      · exact kept
  | buddy wdn => exact ⟨_, rfl, kept.periods, kept.armed, kept.restored⟩
  | nego bits => exact ⟨_, rfl, kept.periods, kept.armed, kept.restored⟩
  | tune channel => exact ⟨_, rfl, kept.periods, kept.armed, kept.restored⟩
  | state state =>
      refine ⟨_, rfl, ?_⟩
      rw [RoState.wfP2pSetState_same]
      exact ⟨kept.periods, kept.armed, kept.restored⟩

theorem RoKept.refused {event : RoEvent} {next : RoState} (refused : ¬ RoAllowed s event)
    (steps : roStep s event = some next) : ¬ RoKept next := by
  cases event with
  | cancel =>
      cases steps
      simp only [RoAllowed, Classical.not_imp, not_or] at refused
      obtain ⟨active, connected, quiet, again, apart⟩ := refused
      intro kept
      rcases explicitCancel_cases s with ⟨idle, -⟩ | ⟨-, -, -, cancels⟩
      · simp [active] at idle
      · rw [if_neg again] at cancels
        exact apart (kept.restored ⟨s.wfP2pGetBuddyChannel, s.goNegoing, s.hwCh⟩
          (by simp [cancels]) connected quiet)
  | remain remainCh duration now => exact absurd trivial refused
  | fire => exact absurd trivial refused
  | buddy wdn => exact absurd trivial refused
  | nego bits => exact absurd trivial refused
  | tune channel => exact absurd trivial refused
  | state state => exact absurd trivial refused

theorem roStart_kept : RoKept roStart :=
  ⟨⟨0, rfl⟩, by simp [roStart], by simp [roStart]⟩

/--
Every period is ended once, and an explicit cancel leaves the buddy's channel behind it,
throughout exactly the runs in which a cancel that is to restore it finds `ro_ch_again` clear or
the channel there.
-/
theorem remain_kept_iff (events : List RoEvent) :
    Throughout roStep RoKept roStart events ↔ EachStep roStep RoAllowed roStart events := by
  apply throughout_iff_of_clean RoKept
  · exact fun s kept => kept
  · exact fun s event kept allowed => kept.step allowed
  · exact fun s event next _ refused steps => RoKept.refused refused steps
  · exact roStart_kept

/-- Two periods; the timer of the first one fires between them. -/
def staleExpiry : List RoEvent :=
  [.buddy (some 6), .tune 6, .remain 1 500 10, .cancel, .fire, .remain 11 500 20, .cancel]

/-- The second cancel leaves the channel of its period to the buddy, which is on another one. -/
theorem cancel_keeps_channel :
    (run roStep roStart staleExpiry).map (fun s =>
        (s.cancels.map fun c => (c.buddyCh, c.goNegoing, c.hwCh), s.marks)) =
      some ([(6, 0, 6), (6, 0, 11)], [.started, .expired, .stale, .started, .expired]) ∧
      ¬ Throughout roStep RoKept roStart staleExpiry := by
  have ends : (run roStep roStart staleExpiry).map (fun s =>
      (s.cancels.map fun c => (c.buddyCh, c.goNegoing, c.hwCh), s.marks)) =
      some ([(6, 0, 6), (6, 0, 11)], [.started, .expired, .stale, .started, .expired]) := by
    decide +kernel
  refine ⟨ends, ?_⟩
  intro throughout
  obtain ⟨final, kept, seen⟩ := throughout.observed ends
  simp only [Prod.mk.injEq] at seen
  have member : ((6, 0, 11) : UInt8 × UInt32 × UInt8) ∈
      final.cancels.map fun c => (c.buddyCh, c.goNegoing, c.hwCh) := by
    rw [seen.1]
    decide
  obtain ⟨c, listed, same⟩ := List.mem_map.mp member
  simp only [Prod.mk.injEq] at same
  have restored := kept.restored c listed (by simp [same]) same.2.1
  simp [same] at restored

/-- `ro_ch_again` is set while a stale timer was the last to tell of a period's end. -/
theorem roChAgain_iff_stale {events : List RoEvent} {final : RoState}
    (reached : run roStep roStart events = some final) :
    final.roChAgain = 0 ↔ (final.marks.filter (· ≠ .started)).getLast? ≠ some .stale := by
  refine run_invariant (fun s : RoState => s.roChAgain = 0 ↔
    (s.marks.filter (· ≠ .started)).getLast? ≠ some .stale) ?_ (by simp [roStart]) reached
  intro s next event _ same steps
  cases event with
  | remain remainCh duration now =>
      cases steps
      obtain ⟨-, -, again, marks, -⟩ := RoState.remain_spec
        { s with remainCh := remainCh, roChDuration := duration } now
      rw [again, marks]
      split_ifs <;> simpa using same
  | cancel =>
      cases steps
      rcases s.cancel_cases with ⟨idle, kept⟩ | ⟨active, -, again, -, marks, -, -⟩
      · simpa [RoState.explicitCancel, idle, kept] using same
      · simp [RoState.explicitCancel, active, again, marks]
  | fire =>
      cases steps
      split_ifs with armed
      · rcases RoState.handle_cases { s with remainChTimer := none } with
          ⟨-, handled⟩ | ⟨-, -, again, marks, -⟩
        · simp [handled]
        · simp [again, marks]
      · exact same
  | buddy wdn =>
      cases steps
      exact same
  | nego bits =>
      cases steps
      exact same
  | tune channel =>
      cases steps
      exact same
  | state state =>
      cases steps
      rw [RoState.wfP2pSetState_same]
      exact same

end Runs

end Smartchip.P2p
