import Smartchip.Foundation.Run
import Smartchip.Utility.Timer

/-!
# The traffic of a connection and its power save

`core_conn_maintain_traffic` of `nic/mlme.c` and `wf_lps_sleep_mlme_monitor` of `nic/lps.c`,
which count the same packets in intervals of their own.
-/

namespace Smartchip.Mlme

open Smartchip.Foundation Smartchip.Utility

/-- The counters of `link_info` that the two functions read. -/
structure LinkInfo where
  numTxOkInPeriod : UInt32
  numRxOkInPeriod : UInt32
  numRxUnicastOkInPeriod : UInt32
  busyTraffic : Bool

/-- `pkt_num`. -/
def LinkInfo.pktNum (link : LinkInfo) : UInt32 :=
  link.numRxUnicastOkInPeriod + link.numTxOkInPeriod

inductive LpsPc where
  | begin
  | timed
  | notIdle
  | busy
  deriving DecidableEq

/-- A sleep request comes with the packets of the interval that the monitor timed last. -/
inductive LpsCall where
  | wakeupNoLinked
  | wakeupTrafficBusy
  | sleep (packets : Nat)
  deriving DecidableEq

/-- `idle` and `active` are for `MLME_STATE_IDLE` and `PWR_MODE_ACTIVE`; `packets` have been
counted since the monitor set its timer, and `timedPackets` until it found it expired.  The last
fields but one are what the counters showed when the timer was set, what
`core_conn_maintain_traffic` has cleared since, and what was lost by both resets in the interval
that ended last. -/
structure LpsState where
  now : Nat
  link : LinkInfo
  trafficTimer : WfTimer
  lpsTimer : WfTimer
  pc : LpsPc
  idle : Bool
  connect : Bool
  active : Bool
  packets : Nat
  timedPackets : Nat
  base : UInt32
  cleared : UInt32
  lost : UInt32
  calls : List LpsCall

section Steps

variable (clock : Clock)

def coreConnMaintainTraffic (now : Nat) (timer : WfTimer) (link : LinkInfo) :
    WfTimer × LinkInfo :=
  if wfTimerExpired timer now = false then (timer, link)
  else
    let busyThreshold : UInt32 := if link.busyTraffic then 75 else 100
    (wfTimerReset timer, {
      busyTraffic := link.numRxOkInPeriod > busyThreshold ∨ link.numTxOkInPeriod > busyThreshold
      numTxOkInPeriod := 0
      numRxOkInPeriod := 0
      numRxUnicastOkInPeriod := 0 })

namespace LpsState

/-- The loop begins; its timer has just been set, so the wait begins as well. -/
def loop (s : LpsState) : LpsState :=
  { s with
    lpsTimer := wfTimerSet s.now (clock.msecsToTimestamp (2 * 1000))
    pc := .timed
    packets := 0
    base := s.link.pktNum
    cleared := 0 }

def call (s : LpsState) (c : LpsCall) : LpsState := { s with calls := s.calls ++ [c] }

/-- Behind the wait for the traffic. -/
def decide (s : LpsState) : LpsState :=
  if s.connect = false then
    if s.active = false then (s.call .wakeupNoLinked).loop clock else s.loop clock
  else if s.link.pktNum > 8 then
    if s.active = false then (s.call .wakeupTrafficBusy).loop clock else s.loop clock
  else if s.active then (s.call (.sleep s.timedPackets)).loop clock
  else s.loop clock

def waitTraffic (s : LpsState) : LpsState :=
  if s.link.busyTraffic then { s with pc := .busy } else s.decide clock

/-- The packets of the interval that are not in the counters when they have been cleared. -/
def lostBehind (s : LpsState) : UInt32 := s.cleared + s.link.pktNum - s.base

def resetCounters (s : LpsState) : LpsState :=
  { s with
    link := { s.link with numTxOkInPeriod := 0, numRxUnicastOkInPeriod := 0 }
    timedPackets := s.packets
    lost := s.lostBehind }

/-- `wf_lps_sleep_mlme_monitor`, from where it waits to its next wait. -/
def monitor (s : LpsState) : LpsState :=
  match s.pc with
  | .begin => s.loop clock
  | .timed =>
      if wfTimerExpired s.lpsTimer s.now = false then s
      else if s.idle = false then
        { s with
          lpsTimer := wfTimerSet s.now (clock.msecsToTimestamp (2 * 1000))
          pc := .notIdle }
      else s.resetCounters.waitTraffic clock
  | .notIdle => if wfTimerExpired s.lpsTimer s.now = false then s else s.loop clock
  | .busy => s.waitTraffic clock

def traffic (s : LpsState) : LpsState :=
  let out := coreConnMaintainTraffic s.now s.trafficTimer s.link
  { s with
    trafficTimer := out.1
    link := out.2
    cleared := s.cleared + (s.link.pktNum - out.2.pktNum) }

/-- A frame for the interface itself; only some are counted in `num_rx_ok_in_period`. -/
def receiveUnicast (s : LpsState) : LpsState :=
  { s with
    link := { s.link with numRxUnicastOkInPeriod := s.link.numRxUnicastOkInPeriod + 1 }
    packets := s.packets + 1 }

def receiveOk (s : LpsState) : LpsState :=
  { s with link := { s.link with numRxOkInPeriod := s.link.numRxOkInPeriod + 1 } }

def transmit (s : LpsState) : LpsState :=
  { s with
    link := { s.link with numTxOkInPeriod := s.link.numTxOkInPeriod + 1 }
    packets := s.packets + 1 }

end LpsState

/-- What happens to a connection between and at the calls of the two functions. -/
inductive LpsEvent where
  | tick (ticks : Nat)
  | receiveUnicast
  | receiveOk
  | transmit
  | idle (value : Bool)
  | connect (value : Bool)
  | active (value : Bool)
  | traffic
  | monitor

def lpsStep (s : LpsState) : LpsEvent → Option LpsState
  | .tick ticks => some { s with now := s.now + ticks }
  | .receiveUnicast => some s.receiveUnicast
  | .receiveOk => some s.receiveOk
  | .transmit => some s.transmit
  | .idle value => some { s with idle := value }
  | .connect value => some { s with connect := value }
  | .active value => some { s with active := value }
  | .traffic => some s.traffic
  | .monitor => some (s.monitor clock)

/-- At the beginning of `core_conn_maintain`. -/
def lpsStart (now : Nat) : LpsState where
  now := now
  link := ⟨0, 0, 0, false⟩
  trafficTimer := wfTimerSet now (clock.msecsToTimestamp (1 * 1000))
  lpsTimer := ⟨0, 0, 0⟩
  pc := .begin
  idle := true
  connect := true
  active := true
  packets := 0
  timedPackets := 0
  base := 0
  cleared := 0
  lost := 0
  calls := []

/-! ## What is to hold -/

/-- The link sleeps only when at most 8 packets were counted in the interval before. -/
def SleepsIdle (s : LpsState) : Prop := ∀ packets, .sleep packets ∈ s.calls → packets ≤ 8

/-- The monitor gets past the wait for the traffic with nothing against the sleep: the timer has
expired and the counters have just been cleared, or the traffic has calmed down with at most 8
packets since. -/
def LpsState.AtSleep (s : LpsState) : Prop :=
  s.link.busyTraffic = false ∧ s.connect = true ∧ s.active = true ∧
    (s.pc = .timed ∧ wfTimerExpired s.lpsTimer s.now = true ∧ s.idle = true ∨
      s.pc = .busy ∧ s.link.pktNum ≤ 8)

/-- The packets of the interval that ends, or has ended, before the wait. -/
def LpsState.interval (s : LpsState) : Nat :=
  if s.pc = .timed then s.packets else s.timedPackets

/-- What the resets take out of the counters in that interval: those of
`core_conn_maintain_traffic` inside the wait, and that of the monitor behind it. -/
def LpsState.takenOut (s : LpsState) : UInt32 :=
  if s.pc = .timed then s.lostBehind else s.lost

/-- The resets take at most 8 packets away from the comparison, and no counter has come round. -/
def LpsAllowed (s : LpsState) : LpsEvent → Prop
  | .monitor => s.AtSleep → s.takenOut ≤ 8 ∧ s.interval < 2 ^ 32
  | _ => True

/-- No packet gets lost between the two resets: all that were counted since the timer was set
have been cleared or are in the counters, beside those that were there before. -/
structure Counted (s : LpsState) : Prop where
  timed : s.pc = .timed → UInt32.ofNat s.packets + s.base = s.cleared + s.link.pktNum
  busy : s.pc = .busy → UInt32.ofNat s.timedPackets = s.lost

/-! ## Steps -/

@[simp] theorem calls_loop (s : LpsState) : (s.loop clock).calls = s.calls := rfl

/-- The call that the monitor makes behind its waits. -/
theorem calls_decide (s : LpsState) :
    (s.decide clock).calls = s.calls ++
      if s.connect = false then if s.active = false then [.wakeupNoLinked] else []
      else if s.link.pktNum > 8 then
        if s.active = false then [.wakeupTrafficBusy] else []
      else if s.active then [.sleep s.timedPackets] else [] := by
  unfold LpsState.decide
  split_ifs <;> simp [LpsState.call]

theorem sleep_mem_waitTraffic (s : LpsState) (packets : Nat) :
    .sleep packets ∈ (s.waitTraffic clock).calls ↔
      .sleep packets ∈ s.calls ∨ (s.link.busyTraffic = false ∧ s.connect = true ∧
        s.active = true ∧ s.link.pktNum ≤ 8) ∧
        packets = s.timedPackets := by
  unfold LpsState.waitTraffic
  split_ifs with busy
  · simp [busy]
  · rw [calls_decide]
    split_ifs with off asleep much asleep awake
    · simp [off]
    · simp [off]
    · simp [UInt32.not_le.mpr much]
    · simp [UInt32.not_le.mpr much]
    · simp [busy, off, awake, UInt32.not_lt.mp much]
    · simp [awake]

/-- A step of the monitor asks for a sleep, with the packets of its interval, exactly at one. -/
theorem sleep_mem_monitor (s : LpsState) (packets : Nat) :
    .sleep packets ∈ (s.monitor clock).calls ↔
      .sleep packets ∈ s.calls ∨ s.AtSleep ∧ packets = s.interval := by
  unfold LpsState.monitor LpsState.AtSleep LpsState.interval
  cases pc : s.pc with
  | begin => simp
  | notIdle =>
      dsimp only
      split_ifs <;> simp
  | busy => simp [sleep_mem_waitTraffic]
  | timed =>
      cases waits : wfTimerExpired s.lpsTimer s.now with
      | false => simp
      | true =>
          cases idle : s.idle with
          | false => simp
          | true => simp [sleep_mem_waitTraffic, LpsState.resetCounters, LinkInfo.pktNum, idle]

variable {clock} {s : LpsState}

theorem SleepsIdle.monitor_iff (idle : SleepsIdle s) :
    SleepsIdle (s.monitor clock) ↔ (s.AtSleep → s.interval ≤ 8) := by
  constructor
  · intro after asleep
    exact after s.interval ((sleep_mem_monitor clock s s.interval).mpr (.inr ⟨asleep, rfl⟩))
  · intro few packets member
    rcases (sleep_mem_monitor clock s packets).mp member with old | ⟨asleep, rfl⟩
    · exact idle packets old
    · exact few asleep

/-! ## Where the packets are -/

theorem few_iff {n : Nat} {taken : UInt32} (same : UInt32.ofNat n = taken) :
    n ≤ 8 ↔ taken ≤ 8 ∧ n < 2 ^ 32 := by
  have value : taken.toNat = n % 2 ^ 32 := by
    rw [← same]
    exact UInt32.toNat_ofNat'
  have eight : (8 : UInt32).toNat = 8 := rfl
  rw [UInt32.le_iff_toNat_le, value, eight]
  omega

/-- Where the monitor gets to a sleep, the resets have taken what was counted. -/
theorem Counted.takenOut (counted : Counted s) (asleep : s.AtSleep) :
    UInt32.ofNat s.interval = s.takenOut := by
  obtain ⟨-, -, -, ⟨timed, -⟩ | ⟨busy, -⟩⟩ := asleep
  · have sum := counted.timed timed
    rw [LpsState.interval, LpsState.takenOut, if_pos timed, if_pos timed, LpsState.lostBehind,
      ← sum, UInt32.add_sub_cancel]
  · have later : s.pc ≠ .timed := by simp [busy]
    rw [LpsState.interval, LpsState.takenOut, if_neg later, if_neg later, counted.busy busy]

theorem Counted.same {s' : LpsState} (counted : Counted s) (pc : s'.pc = s.pc)
    (packets : s'.packets = s.packets) (timedPackets : s'.timedPackets = s.timedPackets)
    (base : s'.base = s.base) (lost : s'.lost = s.lost)
    (sum : s'.cleared + s'.link.pktNum = s.cleared + s.link.pktNum) : Counted s' := by
  constructor
  · rw [pc, packets, base, sum]
    exact counted.timed
  · rw [pc, timedPackets, lost]
    exact counted.busy

/-- A packet is counted by the monitor and in one of the counters. -/
theorem Counted.more {s' : LpsState} (counted : Counted s) (pc : s'.pc = s.pc)
    (packets : s'.packets = s.packets + 1) (timedPackets : s'.timedPackets = s.timedPackets)
    (base : s'.base = s.base) (lost : s'.lost = s.lost) (cleared : s'.cleared = s.cleared)
    (pktNum : s'.link.pktNum = s.link.pktNum + 1) : Counted s' := by
  constructor
  · rw [pc, packets, base, cleared, pktNum]
    intro timed
    have one : UInt32.ofNat (s.packets + 1) = UInt32.ofNat s.packets + 1 := UInt32.ofNat_add ..
    rw [one, ← UInt32.add_assoc, ← counted.timed timed, UInt32.add_assoc, UInt32.add_comm 1,
      ← UInt32.add_assoc]
  · rw [pc, timedPackets, lost]
    exact counted.busy

theorem Counted.loop (s : LpsState) : Counted (s.loop clock) := by
  constructor
  · intro _
    simp [LpsState.loop]
  · intro busy
    cases busy

/-- Whatever is called, the interval begins again. -/
theorem Counted.decide (s : LpsState) : Counted (s.decide clock) := by
  unfold LpsState.decide
  split_ifs
  all_goals exact Counted.loop _

theorem Counted.waitTraffic (took : UInt32.ofNat s.timedPackets = s.lost) :
    Counted (s.waitTraffic clock) := by
  unfold LpsState.waitTraffic
  split_ifs
  · constructor
    · intro timed
      cases timed
    · exact fun _ => took
  · exact Counted.decide s

theorem Counted.monitor (counted : Counted s) : Counted (s.monitor clock) := by
  unfold LpsState.monitor
  cases pc : s.pc with
  | begin => exact Counted.loop s
  | notIdle =>
      dsimp only
      split_ifs
      · exact counted
      · exact Counted.loop s
  | busy => exact Counted.waitTraffic (counted.busy pc)
  | timed =>
      dsimp only
      split_ifs
      · exact counted
      · constructor <;> exact nofun
      · apply Counted.waitTraffic
        have sum := counted.timed pc
        simp only [LpsState.resetCounters, LpsState.lostBehind]
        rw [← sum, UInt32.add_sub_cancel]

theorem Counted.step {event : LpsEvent} (counted : Counted s) :
    ∃ next, lpsStep clock s event = some next ∧ Counted next := by
  cases event with
  | monitor => exact ⟨_, rfl, counted.monitor⟩
  | traffic =>
      refine ⟨_, rfl, counted.same rfl rfl rfl rfl rfl ?_⟩
      simp only [LpsState.traffic]
      rw [UInt32.add_assoc, UInt32.sub_add_cancel]
  | receiveUnicast =>
      refine ⟨_, rfl, counted.more rfl rfl rfl rfl rfl rfl ?_⟩
      simp only [LpsState.receiveUnicast, LinkInfo.pktNum]
      rw [UInt32.add_assoc, UInt32.add_assoc, UInt32.add_comm 1]
  | transmit =>
      refine ⟨_, rfl, counted.more rfl rfl rfl rfl rfl rfl ?_⟩
      simp only [LpsState.transmit, LinkInfo.pktNum]
      rw [UInt32.add_assoc]
  | _ => exact ⟨_, rfl, counted.same rfl rfl rfl rfl rfl rfl⟩

/-- A step of the monitor keeps to the idle intervals exactly when the resets take few packets. -/
theorem SleepsIdle.allowed_iff (idle : SleepsIdle s) (counted : Counted s) :
    SleepsIdle (s.monitor clock) ↔ LpsAllowed s .monitor := by
  rw [idle.monitor_iff]
  apply forall_congr'
  intro asleep
  exact few_iff (counted.takenOut asleep)

theorem SleepsIdle.step {event : LpsEvent} (idle : SleepsIdle s) (counted : Counted s)
    (allowed : LpsAllowed s event) {next : LpsState} (steps : lpsStep clock s event = some next) :
    SleepsIdle next := by
  cases event with
  | monitor =>
      cases steps
      exact (idle.allowed_iff counted).mpr allowed
  | _ =>
      cases steps
      exact idle

theorem SleepsIdle.refused {event : LpsEvent} {next : LpsState} (idle : SleepsIdle s)
    (counted : Counted s) (refused : ¬ LpsAllowed s event)
    (steps : lpsStep clock s event = some next) : ¬ SleepsIdle next := by
  cases event with
  | monitor =>
      cases steps
      exact fun after => refused ((idle.allowed_iff counted).mp after)
  | _ => exact absurd trivial refused

end Steps

end Smartchip.Mlme
