import Smartchip.Foundation.Run
import Smartchip.Frame.Header
import Smartchip.Utility.Message
import Smartchip.Utility.Timer

/-!
# The keep-alive of a connection

`core_conn_maintain_keepalive_thrd` of `nic/mlme.c` beside `core_conn_maintain_msg_thrd`, which
takes the messages that it and others queue.  A step is one call of the innermost thread, in any
order, so the rounds of `core_conn_maintain` are among the runs.
-/

namespace Smartchip.Mlme

open Smartchip.Foundation Smartchip.Frame Smartchip.Utility

inductive MaintainTag where
  | scanAbort
  | scanRsp
  | ibssLeave
  | ibssBeaconFrame
  | connAbort
  | deauth
  | deassoc
  | p2p
  | scan
  | conn
  | connIbss
  | addBaReq
  | addBaRsp
  | keepalive
  | lps
  deriving DecidableEq

/-- `idx` tells the messages of one tag apart. -/
structure MaintainMsg where
  tag : MaintainTag
  idx : Nat
  deriving DecidableEq

/-- `tag | WF_MSG_TAG_ID_MSK`. -/
def MaintainMsg.urgency (msg : MaintainMsg) : Nat :=
  match msg.tag with
  | .scan | .conn | .connIbss => 0xFF
  | .addBaReq | .addBaRsp | .keepalive | .lps => 0x17F
  | _ => 0x7F

/-- `mlme_msg_init`. -/
def mlmeMessages : List MaintainMsg :=
  [(MaintainTag.scanAbort, 2), (.connAbort, 2), (.deauth, 1), (.deassoc, 1), (.p2p, 4), (.scan, 2),
    (.scanRsp, 2), (.conn, 2), (.addBaReq, 16), (.addBaRsp, 16), (.connIbss, 1), (.ibssLeave, 1),
    (.ibssBeaconFrame, 1), (.lps, 1), (.keepalive, 1)].flatMap
      fun row => (List.range row.2).map fun idx => ⟨row.1, idx⟩

/-- Two messages stay with the thread until what they ask for has ended. -/
def MaintainTag.stays : MaintainTag → Bool
  | .scan | .addBaRsp => true
  | _ => false

inductive KeepAlivePc where
  | begin
  | first
  | second
  deriving DecidableEq

/-- `waits` when the scan of the message has been stopped. -/
inductive MsgThrdPc where
  | ready
  | run (msg : MaintainMsg) (waits : Bool)
  | ended
  deriving DecidableEq

/-- What happens to the link and to a probe, with its time. -/
inductive LinkNote where
  | received (time : Nat)
  | queued (time : Nat) (probe : MaintainMsg)
  | takenUp (time : Nat) (probe : MaintainMsg)
  | requested (time : Nat)
  deriving DecidableEq

def LinkNote.time : LinkNote → Nat
  | .received time | .queued time _ | .takenUp time _ | .requested time => time

/-- `queuedAt` and the notes are kept for the statements. -/
structure MaintainState where
  now : Nat
  que : MsgQue MaintainMsg
  busyTraffic : Bool
  isUp : Bool
  workMode : WorkMode
  rxPktStat : UInt32
  rxPktStatLast : UInt32
  keepAliveTimer : WfTimer
  queuedAt : Nat
  pc : KeepAlivePc
  msgPc : MsgThrdPc
  notes : List LinkNote

/-- The message that was free, and the queues with it in its place. -/
def mlmeMsgSend (que : MsgQue MaintainMsg) (tag : MaintainTag) :
    Option (MaintainMsg × MsgQue MaintainMsg) :=
  (wfMsgNew que fun msg => msg.tag = tag).map fun new =>
    (new.1, wfMsgPush MaintainMsg.urgency new.2 new.1)

namespace MaintainState

def note (s : MaintainState) (note : LinkNote) : MaintainState :=
  { s with notes := s.notes ++ [note] }

def wfMlmeDeauth (s : MaintainState) : Option (MsgQue MaintainMsg) :=
  if s.isUp = false then none
  else if s.workMode ≠ .infra then none
  else (mlmeMsgSend s.que .deauth).map Prod.snd

/-! ## The message thread -/

/-- `core_conn_maintain_msg_thrd` at its queue. -/
def message (s : MaintainState) : MaintainState :=
  match s.msgPc, wfMsgPop s.que with
  | .ready, some (msg, que) =>
      let s := { s with que := if msg.tag.stays then que else wfMsgDel que msg }
      match msg.tag with
      | .keepalive => { s with msgPc := .run msg false }.note (.takenUp s.now msg)
      | .scan | .deauth | .deassoc | .connAbort | .addBaReq | .addBaRsp =>
          { s with msgPc := .run msg false }
      | _ => s
  | _, _ => s

/-- The loop around a scan looks at the first message. -/
def look (s : MaintainState) : MaintainState :=
  match s.msgPc, s.que.pend.head? with
  | .run msg false, some first =>
      let stop := { s with msgPc := .run msg true }
      if msg.tag ≠ .scan ∧ msg.tag ≠ .keepalive then s
      else
        match first.tag with
        | .scanAbort => { stop with que := wfMsgDel s.que first }
        | .scanRsp =>
            if msg.tag = .keepalive then { stop with que := wfMsgDel s.que first } else s
        | .connAbort | .deauth | .deassoc => stop
        | _ => s
  | _, _ => s

/-- The thread that the message thread runs has ended. -/
def subEnded (s : MaintainState) : MaintainState :=
  match s.msgPc with
  | .run msg _ =>
      let que := if msg.tag.stays then wfMsgDel s.que msg else s.que
      match msg.tag with
      | .deauth | .deassoc | .connAbort => { s with que, msgPc := .ended }
      | _ => { s with que, msgPc := .ready }
  | _ => s

/-! ## The keep-alive thread -/

section KeepAlive

variable (clock : Clock)

def setTimer (s : MaintainState) : MaintainState :=
  { s with keepAliveTimer := wfTimerSet s.now (clock.msecsToTimestamp (10 * 1000)) }

/-- The loop begins; behind the wait its timer has just been set. -/
def loop (s : MaintainState) : MaintainState :=
  if s.busyTraffic then { s with pc := .begin }
  else { s.setTimer clock with rxPktStatLast := s.rxPktStat, pc := .first }

def afterFirst (s : MaintainState) : MaintainState :=
  if s.rxPktStatLast ≠ s.rxPktStat then s.loop clock
  else
    match mlmeMsgSend s.que .keepalive with
    | none => s.loop clock
    | some (msg, que) =>
        { s.setTimer clock with que, queuedAt := s.now, pc := .second }.note (.queued s.now msg)

def afterSecond (s : MaintainState) : MaintainState :=
  if s.rxPktStatLast ≠ s.rxPktStat then s.loop clock
  else
    match s.wfMlmeDeauth with
    | none => (s.note (.requested s.now)).loop clock
    | some que => { s with que, pc := .begin }.note (.requested s.now)

/-- `core_conn_maintain_keepalive_thrd`, which nobody calls once the connection has ended. -/
def keepalive (s : MaintainState) : MaintainState :=
  if s.msgPc = .ended then s
  else
    match s.pc with
    | .begin => s.loop clock
    | .first => if wfTimerExpired s.keepAliveTimer s.now then s.afterFirst clock else s
    | .second => if wfTimerExpired s.keepAliveTimer s.now then s.afterSecond clock else s

end KeepAlive

def receive (s : MaintainState) : MaintainState :=
  { s with rxPktStat := s.rxPktStat + 1 }.note (.received s.now)

end MaintainState

/-- `send` is for the messages of others. -/
inductive MaintainEvent where
  | tick (ticks : Nat)
  | receive
  | busy (value : Bool)
  | up (value : Bool)
  | mode (value : WorkMode)
  | send (tag : MaintainTag)
  | message
  | look
  | subEnded
  | keepalive

def maintainStep (clock : Clock) (s : MaintainState) : MaintainEvent → Option MaintainState
  | .tick ticks => some { s with now := s.now + ticks }
  | .receive => some s.receive
  | .busy value => some { s with busyTraffic := value }
  | .up value => some { s with isUp := value }
  | .mode value => some { s with workMode := value }
  | .send tag => some { s with que := ((mlmeMsgSend s.que tag).map Prod.snd).getD s.que }
  | .message => some s.message
  | .look => some s.look
  | .subEnded => some s.subEnded
  | .keepalive => some (s.keepalive clock)

/-- At the beginning of `core_conn_maintain`. -/
def maintainStart (now : Nat) (que : MsgQue MaintainMsg) (rxPktStat : UInt32) : MaintainState where
  now := now
  que := que
  busyTraffic := false
  isUp := true
  workMode := .infra
  rxPktStat := rxPktStat
  rxPktStatLast := 0
  keepAliveTimer := ⟨0, 0, 0⟩
  queuedAt := 0
  pc := .begin
  msgPc := .ready
  notes := []

/-! ## What is to hold -/

/-- The packets among the notes. -/
def packets (notes : List LinkNote) : Nat :=
  notes.countP fun note => note matches .received _

/-- No packet has come for twenty seconds, and the probe that was queued in them was taken up ten
seconds ago. -/
def DeadLink (clock : Clock) (notes : List LinkNote) (time : Nat) : Prop :=
  ∃ old before behind since asked probe taken,
    notes = old ++ (before ++ .queued asked probe :: behind) ∧
    (∀ note ∈ old, note.time ≤ since) ∧
    (∀ note ∈ before ++ .queued asked probe :: behind, since ≤ note.time) ∧
    since + 20 * clock.hz ≤ time ∧ packets (before ++ .queued asked probe :: behind) = 0 ∧
    .takenUp taken probe ∈ behind ∧ taken + 10 * clock.hz ≤ time

/-- A deauthentication is requested for a dead link only. -/
def DropsDeadLinks (clock : Clock) (s : MaintainState) : Prop :=
  ∀ notes time, notes ++ [.requested time] <+: s.notes → DeadLink clock notes time

/-! ## When it holds -/

/-- The second timer runs although a probe is still in the queue. -/
def MaintainState.ProbeWaits (s : MaintainState) : Prop :=
  s.pc = .second ∧ ∃ msg ∈ s.que.pend, msg.tag = .keepalive

instance (s : MaintainState) : Decidable s.ProbeWaits :=
  inferInstanceAs (Decidable (_ ∧ _))

/-- A probe waits for one tick at most, which is what the timer gives on top of its ten seconds,
and no packet brings `rx_pkt_stat` round to `rx_pkt_stat_last`. -/
def MaintainAllowed (s : MaintainState) : MaintainEvent → Prop
  | .tick ticks => s.ProbeWaits → s.now + ticks ≤ s.queuedAt + 1
  | .receive => s.pc ≠ .begin → s.rxPktStat + 1 ≠ s.rxPktStatLast
  | _ => True

instance (s : MaintainState) : ∀ event, Decidable (MaintainAllowed s event)
  | .tick ticks => inferInstanceAs (Decidable (s.ProbeWaits → s.now + ticks ≤ s.queuedAt + 1))
  | .receive => inferInstanceAs (Decidable (s.pc ≠ .begin → s.rxPktStat + 1 ≠ s.rxPktStatLast))
  | .busy _ | .up _ | .mode _ | .send _ | .message | .look | .subEnded | .keepalive => isTrue trivial

/-! ## The invariant -/

/-- `old` had happened when the thread read `rx_pkt_stat` at `since`, and `new` has since. -/
structure Watches (s : MaintainState) (since : Nat) (old new : List LinkNote) : Prop where
  whole : s.notes = old ++ new
  before : ∀ note ∈ old, note.time ≤ since
  after : ∀ note ∈ new, since ≤ note.time
  past : since ≤ s.now
  stat : s.rxPktStat = s.rxPktStatLast → packets new = 0

def WaitsFirst (clock : Clock) (s : MaintainState) : Prop :=
  ∃ since old new, Watches s since old new ∧
    s.keepAliveTimer = wfTimerSet since (clock.msecsToTimestamp (10 * 1000))

/-- Where the probe is, when `behind` has happened since it was queued. -/
def Probed (s : MaintainState) (probe : MaintainMsg) (behind : List LinkNote) : Prop :=
  (probe ∈ s.que.pend ∧ s.now ≤ s.queuedAt + 1) ∨
    ∃ taken, taken ≤ s.queuedAt + 1 ∧ .takenUp taken probe ∈ behind

structure WaitsSecond (clock : Clock) (s : MaintainState) (since : Nat)
    (old before behind : List LinkNote) (probe : MaintainMsg) : Prop where
  watches : Watches s since old (before ++ .queued s.queuedAt probe :: behind)
  later : since + 10 * clock.hz < s.queuedAt
  past : s.queuedAt ≤ s.now
  timer : s.keepAliveTimer = wfTimerSet s.queuedAt (clock.msecsToTimestamp (10 * 1000))
  tag : probe.tag = .keepalive
  probed : Probed s probe behind

/-- What does not depend on where the thread is. -/
structure Recorded (clock : Clock) (s : MaintainState) : Prop where
  times : ∀ note ∈ s.notes, note.time ≤ s.now
  dead : DropsDeadLinks clock s

structure KeepAliveClean (clock : Clock) (s : MaintainState) : Prop where
  recorded : Recorded clock s
  first : s.pc = .first → WaitsFirst clock s
  second : s.pc = .second → ∃ since old before behind probe,
    WaitsSecond clock s since old before behind probe

/-! ## Steps -/

/-- The pending messages with this tag stay, but for one that is taken up. -/
def KeepsProbes (s s' : MaintainState) (note : Option LinkNote) : Prop :=
  ∀ msg ∈ s.que.pend, msg.tag = .keepalive →
    msg ∈ s'.que.pend ∨ note = some (.takenUp s.now msg)

/-- A step that leaves the thread alone and may add a note. -/
structure Beside (s s' : MaintainState) (note : Option LinkNote) : Prop where
  notes : s'.notes = s.notes ++ note.toList
  past : s.now ≤ s'.now
  time : ∀ n ∈ note, n.time = s.now
  kind : ∀ n ∈ note, ∀ time, n ≠ .requested time
  last : s'.rxPktStatLast = s.rxPktStatLast
  timer : s'.keepAliveTimer = s.keepAliveTimer
  queuedAt : s'.queuedAt = s.queuedAt
  pc : s'.pc = s.pc
  stat : s.pc ≠ .begin → s'.rxPktStat = s.rxPktStatLast →
    s'.rxPktStat = s.rxPktStat ∧ packets note.toList = 0
  probes : KeepsProbes s s' note
  waits : s.ProbeWaits → s'.now = s.now ∨ s'.now ≤ s.queuedAt + 1

theorem packets_append (first second : List LinkNote) :
    packets (first ++ second) = packets first + packets second := List.countP_append

section Proofs

variable {clock : Clock} {s s' : MaintainState} {since : Nat} {old new before behind : List LinkNote}
  {probe : MaintainMsg}

theorem interval_toNat (clock : Clock) :
    (clock.msecsToTimestamp (10 * 1000)).toNat = 10 * clock.hz :=
  toNat_msecsToTimestamp clock (Nat.le_refl 10)

theorem elapsed {start : Nat} (past : start ≤ s.now)
    (timer : s.keepAliveTimer = wfTimerSet start (clock.msecsToTimestamp (10 * 1000)))
    (expired : wfTimerExpired s.keepAliveTimer s.now = true) :
    start + 10 * clock.hz < s.now := by
  have small := clock.small
  rw [timer] at expired
  have later := elapsed_of_expired (by rw [interval_toNat]; omega) past expired
  rwa [interval_toNat] at later

/-! ### The queue -/

theorem mem_mlmeMsgSend {que : MsgQue MaintainMsg} {tag : MaintainTag}
    {sent : MaintainMsg × MsgQue MaintainMsg} (sends : mlmeMsgSend que tag = some sent) :
    sent.1.tag = tag ∧ sent.1 ∈ sent.2.pend ∧ ∀ msg ∈ que.pend, msg ∈ sent.2.pend := by
  unfold mlmeMsgSend at sends
  rw [Option.map_eq_some_iff] at sends
  obtain ⟨new, fresh, rfl⟩ := sends
  obtain ⟨-, tagged, popped⟩ := wfMsgNew_some fresh
  refine ⟨by simpa using tagged, mem_wfMsgPush.2 (.inl rfl), ?_⟩
  intro msg member
  rw [mem_wfMsgPush, popped]
  by_cases same : msg = new.1
  · exact .inl same
  · right
    rw [List.mem_erase_of_ne same]
    exact (List.mem_erase_of_ne same).2 member

theorem mem_wfMsgDel {que : MsgQue MaintainMsg} {msg gone : MaintainMsg} (member : msg ∈ que.pend)
    (other : msg ≠ gone) : msg ∈ (wfMsgDel que gone).pend :=
  (List.mem_erase_of_ne other).2 member

/-! ### The notes -/

theorem DropsDeadLinks.note (dead : DropsDeadLinks clock s) {n : LinkNote}
    (ok : ∀ time, n = .requested time → DeadLink clock s.notes time)
    (notes : s'.notes = s.notes ++ [n]) : DropsDeadLinks clock s' := by
  intro before time inside
  rw [notes, List.prefix_concat_iff] at inside
  rcases inside with whole | inside
  · obtain ⟨rfl, same⟩ := List.append_inj' whole rfl
    exact ok time (by simpa using same.symm)
  · exact dead before time inside

theorem Recorded.note (recorded : Recorded clock s) {n : LinkNote}
    (ok : ∀ time, n = .requested time → DeadLink clock s.notes time)
    (notes : s'.notes = s.notes ++ [n]) (past : n.time ≤ s'.now) (now : s.now ≤ s'.now) :
    Recorded clock s' := by
  refine ⟨?_, recorded.dead.note ok notes⟩
  simp only [notes, List.mem_append, List.mem_singleton]
  rintro m (member | rfl)
  · exact Nat.le_trans (recorded.times m member) now
  · exact past

theorem Recorded.of_eq (recorded : Recorded clock s) (notes : s'.notes = s.notes)
    (now : s.now ≤ s'.now) : Recorded clock s' := by
  constructor
  · intro n member
    exact Nat.le_trans (recorded.times n (notes ▸ member)) now
  · intro before time inside
    exact recorded.dead before time (notes ▸ inside)

theorem Recorded.beside {note : Option LinkNote} (recorded : Recorded clock s)
    (beside : Beside s s' note) : Recorded clock s' := by
  cases note with
  | none => exact recorded.of_eq (by simpa using beside.notes) beside.past
  | some n =>
      apply recorded.note (n := n) _ beside.notes _ beside.past
      · intro time same
        exact absurd same (beside.kind n rfl time)
      · rw [beside.time n rfl]
        exact beside.past

theorem Watches.beside {note : Option LinkNote} (watches : Watches s since old new)
    (waiting : s.pc ≠ .begin) (beside : Beside s s' note) :
    Watches s' since old (new ++ note.toList) := by
  constructor
  · rw [beside.notes, watches.whole, List.append_assoc]
  · exact watches.before
  · simp only [List.mem_append, Option.mem_toList]
    rintro n (member | member)
    · exact watches.after n member
    · rw [beside.time n member]
      exact watches.past
  · exact Nat.le_trans watches.past beside.past
  · intro same
    rw [beside.last] at same
    obtain ⟨unchanged, silent⟩ := beside.stat waiting same
    rw [packets_append, watches.stat (unchanged.symm.trans same), silent]

theorem Probed.beside {note : Option LinkNote} (probed : Probed s probe behind)
    (tag : probe.tag = .keepalive) (second : s.pc = .second)
    (beside : Beside s s' note) : Probed s' probe (behind ++ note.toList) := by
  unfold Probed
  rw [beside.queuedAt]
  rcases probed with ⟨member, soon⟩ | ⟨taken, soon, member⟩
  · rcases beside.probes probe member tag with still | taken
    · rcases beside.waits ⟨second, probe, member, tag⟩ with same | later
      · exact .inl ⟨still, same ▸ soon⟩
      · exact .inl ⟨still, later⟩
    · exact .inr ⟨s.now, soon, by simp [taken]⟩
  · exact .inr ⟨taken, soon, List.mem_append_left _ member⟩

theorem WaitsSecond.beside {note : Option LinkNote}
    (waits : WaitsSecond clock s since old before behind probe) (second : s.pc = .second)
    (beside : Beside s s' note) :
    WaitsSecond clock s' since old before (behind ++ note.toList) probe := by
  constructor
  · rw [beside.queuedAt]
    simpa using waits.watches.beside (by simp [second]) beside
  · rw [beside.queuedAt]
    exact waits.later
  · rw [beside.queuedAt]
    exact Nat.le_trans waits.past beside.past
  · rw [beside.queuedAt, beside.timer]
    exact waits.timer
  · exact waits.tag
  · exact waits.probed.beside waits.tag second beside

theorem KeepAliveClean.beside {note : Option LinkNote} (clean : KeepAliveClean clock s)
    (beside : Beside s s' note) : KeepAliveClean clock s' := by
  constructor
  · exact clean.recorded.beside beside
  · intro here
    rw [beside.pc] at here
    obtain ⟨since, old, new, watches, timer⟩ := clean.first here
    exact ⟨since, old, _, watches.beside (by simp [here]) beside, beside.timer ▸ timer⟩
  · intro here
    rw [beside.pc] at here
    obtain ⟨since, old, before, behind, probe, waits⟩ := clean.second here
    exact ⟨since, old, before, _, probe, waits.beside here beside⟩

/-! ### The thread -/

/-- The loop begins with what has happened until now. -/
theorem Recorded.loop (recorded : Recorded clock s) : KeepAliveClean clock (s.loop clock) := by
  cases busy : s.busyTraffic with
  | true =>
      simp only [MaintainState.loop, busy, if_true]
      exact ⟨recorded.of_eq rfl (Nat.le_refl _), by simp, by simp⟩
  | false =>
      simp only [MaintainState.loop, busy]
      constructor
      · exact recorded.of_eq rfl (Nat.le_refl _)
      · intro _
        refine ⟨s.now, s.notes, [], ⟨?_, recorded.times, by simp, Nat.le_refl _, ?_⟩, rfl⟩
        · simp [MaintainState.setTimer]
        · simp [packets]
      · simp

theorem KeepAliveClean.afterFirst (recorded : Recorded clock s) (waits : WaitsFirst clock s)
    (expired : wfTimerExpired s.keepAliveTimer s.now = true) :
    KeepAliveClean clock (s.afterFirst clock) := by
  obtain ⟨since, old, new, watches, timer⟩ := waits
  have later := elapsed watches.past timer expired
  unfold MaintainState.afterFirst
  split_ifs with received
  · exact recorded.loop
  · cases sends : mlmeMsgSend s.que .keepalive with
    | none => exact recorded.loop
    | some sent =>
        obtain ⟨tag, member, -⟩ := mem_mlmeMsgSend sends
        constructor
        · exact recorded.note (by simp) rfl (Nat.le_refl _) (Nat.le_refl _)
        · simp [MaintainState.note]
        · intro _
          refine ⟨since, old, new, [], sent.1, ?_, later, Nat.le_refl _, rfl, tag,
            .inl ⟨member, Nat.le_succ _⟩⟩
          constructor
          · simp [MaintainState.note, MaintainState.setTimer, watches.whole]
          · exact watches.before
          · simp only [List.mem_append, List.mem_singleton]
            rintro n (member | rfl)
            · exact watches.after n member
            · exact watches.past
          · exact watches.past
          · intro same
            rw [packets_append, watches.stat same]
            rfl

/-- What the request relies on: nothing has come, and the timer began with the probe. -/
theorem WaitsSecond.deadLink (waits : WaitsSecond clock s since old before behind probe)
    (expired : wfTimerExpired s.keepAliveTimer s.now = true)
    (silent : s.rxPktStatLast = s.rxPktStat) : DeadLink clock s.notes s.now := by
  have elapsed := elapsed waits.past waits.timer expired
  have later := waits.later
  have second := clock.pos
  rcases waits.probed with ⟨-, soon⟩ | ⟨taken, soon, member⟩
  · omega
  · exact ⟨old, before, behind, since, s.queuedAt, probe, taken, waits.watches.whole,
      waits.watches.before, waits.watches.after, by omega, waits.watches.stat silent.symm, member,
      by omega⟩

theorem KeepAliveClean.afterSecond (recorded : Recorded clock s)
    (waits : WaitsSecond clock s since old before behind probe)
    (expired : wfTimerExpired s.keepAliveTimer s.now = true) :
    KeepAliveClean clock (s.afterSecond clock) := by
  unfold MaintainState.afterSecond
  split_ifs with received
  · exact recorded.loop
  · have dead := waits.deadLink expired (by simpa using received)
    have after : ∀ s' : MaintainState, s'.notes = s.notes ++ [.requested s.now] →
        s'.now = s.now → Recorded clock s' := by
      intro s' notes now
      apply recorded.note _ notes (Nat.le_of_eq now.symm) (Nat.le_of_eq now.symm)
      simp [dead]
    cases s.wfMlmeDeauth with
    | none => exact (after (s.note (.requested s.now)) rfl rfl).loop
    | some que =>
      exact ⟨after _ rfl rfl, by simp [MaintainState.note], by simp [MaintainState.note]⟩

theorem KeepAliveClean.keepalive (clean : KeepAliveClean clock s) :
    KeepAliveClean clock (s.keepalive clock) := by
  unfold MaintainState.keepalive
  split
  · exact clean
  · cases here : s.pc with
    | begin => exact clean.recorded.loop
    | first =>
        dsimp only
        split_ifs with expired
        · exact .afterFirst clean.recorded (clean.first here) expired
        · exact clean
    | second =>
        obtain ⟨since, old, before, behind, probe, waits⟩ := clean.second here
        dsimp only
        split_ifs with expired
        · exact .afterSecond clean.recorded waits expired
        · exact clean

/-! ## The rest of the system -/

theorem KeepsProbes.of_eq (que : s'.que = s.que) : KeepsProbes s s' none :=
  fun _ member _ => .inl (que ▸ member)

theorem KeepsProbes.deletes {gone : MaintainMsg} (que : s'.que = wfMsgDel s.que gone)
    (tag : gone.tag ≠ .keepalive) : KeepsProbes s s' none := by
  intro msg member probe
  left
  rw [que]
  exact mem_wfMsgDel member fun same => tag (same ▸ probe)

/-- A step that changes only what the keep-alive thread and its messages do not depend on. -/
theorem Beside.silent (same : s' = { s with
      que := s'.que, msgPc := s'.msgPc
      busyTraffic := s'.busyTraffic, isUp := s'.isUp, workMode := s'.workMode })
    (probes : KeepsProbes s s' none) : Beside s s' none := by
  have notes : s'.notes = s.notes := by rw [same]
  have now : s'.now = s.now := by rw [same]
  have stat : s'.rxPktStat = s.rxPktStat := by rw [same]
  constructor
  case last => rw [same]
  case timer => rw [same]
  case queuedAt => rw [same]
  case pc => rw [same]
  case probes => exact probes
  all_goals simp [notes, now, stat, packets]

theorem beside_tick {ticks : Nat} (allowed : MaintainAllowed s (.tick ticks)) :
    Beside s { s with now := s.now + ticks } none := by
  constructor
  case waits =>
    intro waits
    exact .inr (allowed waits)
  case probes => exact .of_eq rfl
  all_goals simp [packets]

theorem beside_receive (allowed : MaintainAllowed s .receive) :
    Beside s s.receive (some (.received s.now)) := by
  constructor
  case stat =>
    intro waiting same
    exact absurd same (allowed waiting)
  case probes => exact fun msg member _ => .inl member
  all_goals simp [MaintainState.receive, MaintainState.note, LinkNote.time]

theorem beside_send (s : MaintainState) (tag : MaintainTag) :
    Beside s { s with que := ((mlmeMsgSend s.que tag).map Prod.snd).getD s.que } none := by
  refine .silent rfl ?_
  intro msg member probe
  left
  cases sends : mlmeMsgSend s.que tag with
  | none => exact member
  | some sent => exact (mem_mlmeMsgSend sends).2.2 msg member

theorem beside_message (s : MaintainState) : ∃ note, Beside s s.message note := by
  unfold MaintainState.message
  split
  · rename_i msg que ready pops
    have others : ∀ other ∈ s.que.pend, other ≠ msg →
        other ∈ (if msg.tag.stays then que else wfMsgDel que msg).pend := by
      intro other member ne
      have still : other ∈ que.pend := by
        rw [show que = msgPop s.que msg from (wfMsgPop_some pops).2]
        exact (List.mem_erase_of_ne ne).2 member
      split_ifs
      · exact still
      · exact mem_wfMsgDel still ne
    dsimp only
    generalize (if msg.tag.stays then que else wfMsgDel que msg) = rest at others ⊢
    cases tag : msg.tag with
    | keepalive =>
        refine ⟨some (.takenUp s.now msg), ?_⟩
        constructor
        case probes =>
          intro other member _
          by_cases same : other = msg
          · exact .inr (same ▸ rfl)
          · exact .inl (others other member same)
        all_goals simp [MaintainState.note, packets, LinkNote.time]
    | _ =>
        refine ⟨none, .silent rfl fun other member probe => .inl ?_⟩
        exact others other member fun same => by simp [← same, probe] at tag
  · exact ⟨none, .silent rfl (.of_eq rfl)⟩

theorem beside_look (s : MaintainState) : Beside s s.look none := by
  unfold MaintainState.look
  split
  · rename_i msg first running heads
    dsimp only
    by_cases other : msg.tag ≠ .scan ∧ msg.tag ≠ .keepalive
    · rw [if_pos other]
      exact .silent rfl (.of_eq rfl)
    · rw [if_neg other]
      cases tag : first.tag
      case scanAbort => exact .silent rfl (.deletes rfl (by simp [tag]))
      case scanRsp =>
        dsimp only
        split_ifs
        · exact .silent rfl (.deletes rfl (by simp [tag]))
        · exact .silent rfl (.of_eq rfl)
      all_goals exact .silent rfl (.of_eq rfl)
  · exact .silent rfl (.of_eq rfl)

theorem beside_subEnded (s : MaintainState) : Beside s s.subEnded none := by
  unfold MaintainState.subEnded
  dsimp only
  split
  · rename_i msg waits running
    cases tag : msg.tag
    case scan | addBaRsp => exact .silent rfl (.deletes rfl (by simp [tag]))
    all_goals exact .silent rfl (.of_eq rfl)
  · exact .silent rfl (.of_eq rfl)

theorem KeepAliveClean.step (clean : KeepAliveClean clock s) (event : MaintainEvent)
    (allowed : MaintainAllowed s event) :
    ∃ next, maintainStep clock s event = some next ∧ KeepAliveClean clock next := by
  cases event with
  | tick ticks => exact ⟨_, rfl, clean.beside (beside_tick allowed)⟩
  | receive => exact ⟨_, rfl, clean.beside (beside_receive allowed)⟩
  | send tag => exact ⟨_, rfl, clean.beside (beside_send s tag)⟩
  | message =>
      obtain ⟨note, beside⟩ := beside_message s
      exact ⟨_, rfl, clean.beside beside⟩
  | look => exact ⟨_, rfl, clean.beside (beside_look s)⟩
  | subEnded => exact ⟨_, rfl, clean.beside (beside_subEnded s)⟩
  | keepalive => exact ⟨_, rfl, clean.keepalive⟩
  | _ => exact ⟨_, rfl, clean.beside (.silent rfl (.of_eq rfl))⟩

end Proofs

/-- While the message thread takes the probes up at once, a deauthentication is requested for a
dead link only, whatever else delays the two threads. -/
theorem drops_dead_links (clock : Clock) (now : Nat) (que : MsgQue MaintainMsg)
    (rxPktStat : UInt32) (events : List MaintainEvent)
    (steps : EachStep (maintainStep clock) MaintainAllowed (maintainStart now que rxPktStat)
      events) :
    Throughout (maintainStep clock) (DropsDeadLinks clock) (maintainStart now que rxPktStat)
      events := by
  apply steps.throughout (KeepAliveClean clock)
  · exact fun s clean => clean.recorded.dead
  · exact fun s event clean allowed => clean.step event allowed
  · constructor
    · constructor <;> simp [DropsDeadLinks, maintainStart]
    · simp [maintainStart]
    · simp [maintainStart]

/-- Nobody answers the probe. -/
def unanswered : List MaintainEvent :=
  [.keepalive, .tick 1001, .keepalive, .tick 1, .message, .tick 1000, .keepalive]

theorem drops_unanswered :
    (run (maintainStep hundredHertz) (maintainStart 0 ⟨[], mlmeMessages⟩ 0) unanswered).map
        (fun s => s.notes) =
      some [.queued 1001 ⟨.keepalive, 0⟩, .takenUp 1002 ⟨.keepalive, 0⟩, .requested 2002] ∧
      Throughout (maintainStep hundredHertz) (DropsDeadLinks hundredHertz)
        (maintainStart 0 ⟨[], mlmeMessages⟩ 0) unanswered :=
  ⟨by decide +kernel, drops_dead_links _ _ _ _ _ (by decide +kernel)⟩

/-- A scan runs through both waits, so that the probe stays in the queue. -/
def scanThroughout : List MaintainEvent :=
  [.keepalive, .send .scan, .message, .keepalive, .tick 1001, .look, .keepalive, .tick 1001, .look,
    .keepalive]

/-- The connection ends although nobody has looked at the probe. -/
theorem request_without_probe :
    (run (maintainStep hundredHertz) (maintainStart 0 ⟨[], mlmeMessages⟩ 0) scanThroughout).map
        (fun s => s.notes) = some [.queued 1001 ⟨.keepalive, 0⟩, .requested 2002] ∧
      ¬ Throughout (maintainStep hundredHertz) (DropsDeadLinks hundredHertz)
        (maintainStart 0 ⟨[], mlmeMessages⟩ 0) scanThroughout := by
  have ends : (run (maintainStep hundredHertz) (maintainStart 0 ⟨[], mlmeMessages⟩ 0)
      scanThroughout).map (fun s => s.notes) =
        some [.queued 1001 ⟨.keepalive, 0⟩, .requested 2002] := by
    decide +kernel
  refine ⟨ends, ?_⟩
  intro throughout
  obtain ⟨final, dead, notes⟩ := throughout.observed ends
  obtain ⟨old, before, behind, since, asked, probe, taken, whole, -, -, -, -, inside, -⟩ :=
    dead [.queued 1001 ⟨.keepalive, 0⟩] 2002 (by simp [notes])
  have member : LinkNote.takenUp taken probe ∈ [LinkNote.queued 1001 ⟨.keepalive, 0⟩] := by
    simp [whole, inside]
  simp at member

end Smartchip.Mlme
