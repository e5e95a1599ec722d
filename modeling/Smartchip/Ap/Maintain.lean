import Smartchip.Ap.Auth
import Smartchip.Foundation.Run

/-!
# An associated station

`maintain_thrd` of `nic/ap.c`, which runs on a WDN from its association to its end.  It
counts the seconds without a packet, and at the limit it disconnects the station; no packet
sets the count back.
-/

namespace Smartchip.Ap

open Smartchip.Foundation

/-- What the threads of a WDN keep in it. -/
structure ApWdn extends AuthWdn where
  rxPktStat : UInt32
  rxPktStatLast : UInt32
  rxIdleTimeout : UInt32

/-- The waits of the thread; at `disassoc` it waits for another association. -/
inductive MaintainPc where
  | begun
  | poll
  | disassoc
  deriving DecidableEq

/-- `established` says whether the status of the AP is set, `disassocInd` whether hostapd is
told that the station has left. -/
structure MaintainOut where
  wdn : ApWdn
  pc : MaintainPc
  freed : Bool
  deauth : Option UInt16
  baResp : Bool
  established : Bool
  disassocInd : Bool
  ret : PtRet

def rxIdleTimeoutSeconds : Nat := 1200

def reasonDeauthLeaving : UInt16 := 3

def reasonQstaTimeout : UInt16 := 39

def goOn (w : ApWdn) (pc : MaintainPc) (freed : Bool) : MaintainOut where
  wdn := w
  pc := pc
  freed := freed
  deauth := none
  baResp := false
  established := false
  disassocInd := false
  ret := .waiting

/-- The loop is left. -/
def leaveLoop (w : ApWdn) (pc : MaintainPc) : MaintainOut :=
  { goOn w pc false with ret := .ended }

def beginMaintain (algrthm : AuthAlgrthm) (w : ApWdn) : MaintainOut :=
  { goOn {
      w with
      state := if algrthm = .ieee8021x then .block8021x else .unblock8021x
      rxPktStatLast := w.rxPktStat
      rxIdleTimeout := 0 } .poll false with
    established := true }

/-- One second is over. -/
def secondTick (w : ApWdn) : MaintainOut :=
  if w.rxPktStat ≠ w.rxPktStatLast then
    goOn { w with rxPktStatLast := w.rxPktStat } .poll false
  else
    let counted := { w with rxIdleTimeout := w.rxIdleTimeout + 1 }
    if rxIdleTimeoutSeconds ≤ w.rxIdleTimeout.toNat then
      { leaveLoop counted .poll with deauth := some reasonQstaTimeout }
    else goOn counted .poll false

def maintainMsg (w : ApWdn) : ApMsgTag → MaintainOut
  | .authFrame => leaveLoop w .poll
  | .deauthFrame =>
      { leaveLoop { w with state := .dauth } .poll with deauth := some reasonDeauthLeaving }
  | .disassocFrame => goOn w .disassoc true
  | .baReqFrame => { goOn w .poll true with baResp := true }
  | .assocReqFrame => goOn w .poll true

/-- Behind a disassociation an association request is the only message that matters. -/
def afterDisassoc (w : ApWdn) (head : Option ApMsgTag) (expired : Bool) : MaintainOut :=
  if head = some .assocReqFrame then
    { leaveLoop { w with state := .assoc } .disassoc with disassocInd := true }
  else if head.isSome ∨ expired then leaveLoop w .disassoc
  else goOn w .disassoc false

/-- One step of `maintain_thrd`, from one wait to the next. -/
def maintainThrd (algrthm : AuthAlgrthm) (w : ApWdn) (pc : MaintainPc)
    (head : Option ApMsgTag) (expired : Bool) : MaintainOut :=
  match pc with
  | .begun => beginMaintain algrthm w
  | .poll =>
      match head with
      | some tag => maintainMsg w tag
      | none => if expired then secondTick w else goOn w .poll false
  | .disassoc => afterDisassoc w head expired

/-! ## Seconds without a packet -/

/-- `seconds` has for each second that is over how many packets came in it, the last one
first; `current` counts those of the second that runs. -/
structure MaintainSystem where
  wdn : ApWdn
  pc : MaintainPc
  ret : PtRet
  que : List ApMsgTag
  seconds : List Nat
  current : Nat
  idleOut : Bool

inductive MaintainEvent where
  | packet
  | load (tag : ApMsgTag)
  | thrd (expired : Bool)

def MaintainSystem.ticks (s : MaintainSystem) (expired : Bool) : Bool :=
  s.pc = .poll && s.que.isEmpty && expired

def runMaintain (algrthm : AuthAlgrthm) (s : MaintainSystem) (expired : Bool) :
    MaintainSystem :=
  let out := maintainThrd algrthm s.wdn s.pc s.que.head? expired
  { wdn := out.wdn
    pc := out.pc
    ret := out.ret
    que := if out.freed then s.que.tail else s.que
    seconds := if s.ticks expired then s.current :: s.seconds else s.seconds
    current := if s.ticks expired || s.pc = .begun then 0 else s.current
    idleOut := s.idleOut || out.deauth = some reasonQstaTimeout }

def maintainStep (algrthm : AuthAlgrthm) (s : MaintainSystem) :
    MaintainEvent → Option MaintainSystem
  | .packet => some {
      s with
      wdn := { s.wdn with rxPktStat := s.wdn.rxPktStat + 1 }
      current := s.current + 1 }
  | .load tag => some { s with que := s.que ++ [tag] }
  | .thrd expired => some (if s.ret = .waiting then runMaintain algrthm s expired else s)

/-- The station has been associated, and its queue may hold messages. -/
def maintainStart (w : ApWdn) (que : List ApMsgTag) : MaintainSystem where
  wdn := w
  pc := .begun
  ret := .waiting
  que := que
  seconds := []
  current := 0
  idleOut := false

/-- A station is disconnected as an idle one only behind that many seconds in a row without
a packet. -/
def IdleLongEnough (s : MaintainSystem) : Prop :=
  s.idleOut = true → rxIdleTimeoutSeconds ≤ s.seconds.length ∧
    ∀ n ∈ s.seconds.take rxIdleTimeoutSeconds, n = 0

/-- The packets are counted in 32 bits. -/
def looksQuiet (n : Nat) : Bool := n % 2 ^ 32 = 0

def quietSeconds (seconds : List Nat) : Nat := seconds.countP looksQuiet

/-- A packet has come behind the second quiet second. -/
def LateTraffic (seconds : List Nat) : Prop :=
  ∃ n older, n :: older <:+ seconds ∧ n ≠ 0 ∧ 2 ≤ quietSeconds (n :: older)

/-- When a quiet second is over and the count is at the limit, all packets came before the
second quiet second was over. -/
def OnlyEarlyTraffic (s : MaintainSystem) : MaintainEvent → Prop
  | .thrd expired => s.ret = .waiting → s.ticks expired = true →
      s.wdn.rxPktStat = s.wdn.rxPktStatLast →
      rxIdleTimeoutSeconds ≤ s.wdn.rxIdleTimeout.toNat →
      ¬ LateTraffic (s.current :: s.seconds)
  | _ => True

/-- With one quiet second more than the limit, the last ones are all without a packet
exactly when no packet came behind the second quiet one. -/
theorem last_quiet_iff {seconds : List Nat} {limit : Nat}
    (count : quietSeconds seconds = limit + 1) :
    (∀ n ∈ seconds.take limit, n = 0) ↔ ¬ LateTraffic seconds := by
  constructor
  · rintro quiet ⟨n, older, ⟨newer, split⟩, some, late⟩
    have far : limit ≤ newer.length := by
      by_contra near
      refine some (quiet n ?_)
      rw [← split, List.take_append]
      refine List.mem_append_right _ ?_
      obtain ⟨k, gap⟩ := Nat.exists_eq_add_of_lt (not_le.mp near)
      rw [show limit - newer.length = k + 1 by omega, List.take_succ_cons]
      exact List.mem_cons_self
    have all : quietSeconds (seconds.take limit) = (seconds.take limit).length := by
      unfold quietSeconds
      rw [List.countP_eq_length]
      intro n member
      rw [quiet n member]
      rfl
    have size : (seconds.take limit).length = limit := by
      have long := congrArg List.length split
      rw [List.length_append] at long
      rw [List.length_take]
      omega
    have inNewer : quietSeconds (seconds.take limit) ≤ quietSeconds newer := by
      rw [← split, List.take_append_of_le_length far]
      exact (List.take_sublist limit newer).countP_le
    have sum : quietSeconds seconds = quietSeconds newer + quietSeconds (n :: older) := by
      rw [← split]
      exact List.countP_append
    omega
  · intro early n member
    by_contra some
    obtain ⟨newer, between, split⟩ := List.append_of_mem member
    have whole : seconds = newer ++ (n :: (between ++ seconds.drop limit)) := by
      rw [← List.cons_append, ← List.append_assoc, ← split, List.take_append_drop]
    have short : newer.length < limit := by
      have long := congrArg List.length split
      rw [List.length_append, List.length_cons] at long
      have most := List.length_take_le limit seconds
      omega
    have few : quietSeconds newer ≤ newer.length := List.countP_le_length
    have sum : quietSeconds seconds =
        quietSeconds newer + quietSeconds (n :: (between ++ seconds.drop limit)) := by
      conv_lhs => rw [whole]
      exact List.countP_append
    exact early ⟨n, _, ⟨newer, whole.symm⟩, some, by omega⟩

/-! ## Runs -/

structure MaintainOk (s : MaintainSystem) : Prop where
  begun : s.pc = .begun → s.seconds = []
  counted : s.ret = .waiting → s.pc = .poll →
    s.wdn.rxIdleTimeout.toNat = quietSeconds s.seconds
  below : s.ret = .waiting → s.pc = .poll →
    s.wdn.rxIdleTimeout.toNat ≤ rxIdleTimeoutSeconds
  stat : s.ret = .waiting → s.pc = .poll →
    s.wdn.rxPktStat = s.wdn.rxPktStatLast + UInt32.ofNat s.current
  present : s.ret = .waiting → s.idleOut = false

section Run

variable {algrthm : AuthAlgrthm} {s : MaintainSystem} {expired : Bool}

theorem stat_same_iff (last : UInt32) (n : Nat) :
    last + UInt32.ofNat n = last ↔ looksQuiet n = true := by
  rw [looksQuiet, decide_eq_true_iff, ← UInt32.toNat_inj, UInt32.toNat_add, UInt32.toNat_ofNat']
  have bound := last.toNat_lt
  omega

theorem quietSeconds_cons (n : Nat) (seconds : List Nat) :
    quietSeconds (n :: seconds) =
      quietSeconds seconds + if looksQuiet n = true then 1 else 0 := by
  simp [quietSeconds, List.countP_cons]

/-- The step at the end of a second. -/
theorem runMaintain_tick (here : s.pc = .poll) (empty : s.que = []) :
    runMaintain algrthm s true =
      { s with
        wdn := (secondTick s.wdn).wdn
        pc := (secondTick s.wdn).pc
        ret := (secondTick s.wdn).ret
        seconds := s.current :: s.seconds
        current := 0
        idleOut := s.idleOut || (secondTick s.wdn).deauth = some reasonQstaTimeout } := by
  have kept : (secondTick s.wdn).freed = false := by
    unfold secondTick
    dsimp only
    split_ifs <;> rfl
  simp [runMaintain, maintainThrd, MaintainSystem.ticks, here, empty, kept]

/-- A step that neither begins the thread nor ends a second. -/
structure CountsKept (w : ApWdn) (pc : MaintainPc) (out : MaintainOut) : Prop where
  stat : out.wdn.rxPktStat = w.rxPktStat
  last : out.wdn.rxPktStatLast = w.rxPktStatLast
  idle : out.wdn.rxIdleTimeout = w.rxIdleTimeout
  begun : out.pc ≠ .begun
  poll : out.pc = .poll → pc = .poll
  deauth : out.deauth ≠ some reasonQstaTimeout

theorem maintainMsg_countsKept {w : ApWdn} (tag : ApMsgTag) :
    CountsKept w .poll (maintainMsg w tag) := by
  cases tag with
  | authFrame => exact ⟨rfl, rfl, rfl, nofun, fun _ => rfl, nofun⟩
  | deauthFrame =>
      have other : some reasonDeauthLeaving ≠ some reasonQstaTimeout := by decide
      exact ⟨rfl, rfl, rfl, nofun, fun _ => rfl, other⟩
  | disassocFrame => exact ⟨rfl, rfl, rfl, nofun, fun _ => rfl, nofun⟩
  | baReqFrame => exact ⟨rfl, rfl, rfl, nofun, fun _ => rfl, nofun⟩
  | assocReqFrame => exact ⟨rfl, rfl, rfl, nofun, fun _ => rfl, nofun⟩

theorem afterDisassoc_countsKept {w : ApWdn} (head : Option ApMsgTag) :
    CountsKept w .disassoc (afterDisassoc w head expired) := by
  unfold afterDisassoc
  split_ifs
  · exact ⟨rfl, rfl, rfl, nofun, nofun, nofun⟩
  · exact ⟨rfl, rfl, rfl, nofun, nofun, nofun⟩
  · exact ⟨rfl, rfl, rfl, nofun, nofun, nofun⟩

theorem maintainThrd_countsKept (begun : s.pc ≠ .begun) (other : s.ticks expired = false) :
    CountsKept s.wdn s.pc (maintainThrd algrthm s.wdn s.pc s.que.head? expired) := by
  unfold maintainThrd
  cases here : s.pc with
  | begun => exact absurd here begun
  | poll =>
      cases inside : s.que with
      | nil =>
          have off : expired = false := by
            simpa [MaintainSystem.ticks, here, inside] using other
          subst off
          exact ⟨rfl, rfl, rfl, nofun, fun _ => rfl, nofun⟩
      | cons tag rest => exact maintainMsg_countsKept tag
  | disassoc => exact afterDisassoc_countsKept s.que.head?

/-- Only at the end of a second an idle station is disconnected. -/
theorem runMaintain_idleOut (other : s.ticks expired = false) :
    (runMaintain algrthm s expired).idleOut = s.idleOut := by
  have quiet : (maintainThrd algrthm s.wdn s.pc s.que.head? expired).deauth ≠
      some reasonQstaTimeout := by
    by_cases begun : s.pc = .begun
    · rw [begun]
      exact nofun
    · exact (maintainThrd_countsKept begun other).deauth
  simp [runMaintain, quiet]

theorem MaintainOk.begin (ok : MaintainOk s) (waits : s.ret = .waiting)
    (begun : s.pc = .begun) : MaintainOk (runMaintain algrthm s expired) := by
  have none := ok.begun begun
  have present := ok.present waits
  have other : s.ticks expired = false := by simp [MaintainSystem.ticks, begun]
  constructor <;> intro _
  · simp [runMaintain, none, other]
  · simp [runMaintain, maintainThrd, begun, none, other, beginMaintain, goOn, quietSeconds]
  · simp [runMaintain, maintainThrd, begun, beginMaintain, goOn]
  · simp [runMaintain, maintainThrd, begun, beginMaintain, goOn]
  · simp [runMaintain, maintainThrd, begun, present, beginMaintain, goOn]

theorem MaintainOk.other (ok : MaintainOk s) (waits : s.ret = .waiting)
    (begun : s.pc ≠ .begun) (other : s.ticks expired = false) :
    MaintainOk (runMaintain algrthm s expired) := by
  have kept : CountsKept s.wdn s.pc
      (maintainThrd algrthm s.wdn s.pc s.que.head? expired) :=
    maintainThrd_countsKept begun other
  have present := ok.present waits
  unfold runMaintain
  dsimp only
  generalize maintainThrd algrthm s.wdn s.pc s.que.head? expired = out at kept ⊢
  constructor
  · intro again
    exact absurd again kept.begun
  · intro _ here
    simpa [other, kept.idle] using ok.counted waits (kept.poll here)
  · intro _ here
    simpa [kept.idle] using ok.below waits (kept.poll here)
  · intro _ here
    simpa [other, begun, kept.stat, kept.last] using ok.stat waits (kept.poll here)
  · intro _
    simp [present, kept.deauth]

theorem secondTick_busy {w : ApWdn} (busy : w.rxPktStat ≠ w.rxPktStatLast) :
    secondTick w = goOn { w with rxPktStatLast := w.rxPktStat } .poll false := by
  simp [secondTick, busy]

theorem secondTick_quiet {w : ApWdn} (same : w.rxPktStat = w.rxPktStatLast)
    (below : ¬ rxIdleTimeoutSeconds ≤ w.rxIdleTimeout.toNat) :
    secondTick w = goOn { w with rxIdleTimeout := w.rxIdleTimeout + 1 } .poll false := by
  simp [secondTick, same, below]

theorem secondTick_limit {w : ApWdn} (same : w.rxPktStat = w.rxPktStatLast)
    (limit : rxIdleTimeoutSeconds ≤ w.rxIdleTimeout.toNat) :
    secondTick w = { leaveLoop { w with rxIdleTimeout := w.rxIdleTimeout + 1 } .poll with
      deauth := some reasonQstaTimeout } := by
  simp [secondTick, same, limit]

/-- At the end of a second one is counted when it was a quiet one. -/
theorem MaintainOk.tick (ok : MaintainOk s) (waits : s.ret = .waiting) (here : s.pc = .poll)
    (empty : s.que = []) : MaintainOk (runMaintain algrthm s true) := by
  have counted := ok.counted waits here
  have present := ok.present waits
  have quiet := stat_same_iff s.wdn.rxPktStatLast s.current
  rw [← ok.stat waits here] at quiet
  rw [runMaintain_tick here empty]
  by_cases same : s.wdn.rxPktStat = s.wdn.rxPktStatLast
  · by_cases limit : rxIdleTimeoutSeconds ≤ s.wdn.rxIdleTimeout.toNat
    · rw [secondTick_limit same limit]
      exact ⟨nofun, nofun, nofun, nofun, nofun⟩
    · have one : (s.wdn.rxIdleTimeout + 1).toNat = s.wdn.rxIdleTimeout.toNat + 1 := by
        unfold rxIdleTimeoutSeconds at limit
        rw [UInt32.toNat_add]
        change (s.wdn.rxIdleTimeout.toNat + 1) % 2 ^ 32 = _
        omega
      rw [secondTick_quiet same limit]
      refine ⟨nofun, fun _ _ => ?_, fun _ _ => ?_, fun _ _ => ?_, fun _ => ?_⟩
      · simp [goOn, one, counted, quietSeconds_cons, quiet.mp same]
      · simp only [goOn, one]
        omega
      · simp [goOn, same]
      · simp [goOn, present]
  · have busy : looksQuiet s.current = false := by simpa using mt quiet.mpr same
    rw [secondTick_busy same]
    refine ⟨nofun, fun _ _ => ?_, fun _ _ => ok.below waits here, fun _ _ => ?_, fun _ => ?_⟩
    · simp [goOn, counted, quietSeconds_cons, busy]
    · simp [goOn]
    · simp [goOn, present]

theorem MaintainOk.thrd (ok : MaintainOk s) (waits : s.ret = .waiting) :
    MaintainOk (runMaintain algrthm s expired) := by
  by_cases begun : s.pc = .begun
  · exact ok.begin waits begun
  · cases ticks : s.ticks expired with
    | false => exact ok.other waits begun ticks
    | true =>
        simp only [MaintainSystem.ticks, Bool.and_eq_true, decide_eq_true_eq,
          List.isEmpty_iff] at ticks
        obtain ⟨⟨here, empty⟩, rfl⟩ := ticks
        exact ok.tick waits here empty

theorem maintainOk_start (w : ApWdn) (que : List ApMsgTag) :
    MaintainOk (maintainStart w que) :=
  ⟨fun _ => rfl, nofun, nofun, nofun, fun _ => rfl⟩

/-- A step of the thread is a right one exactly when the condition holds. -/
theorem onlyEarlyTraffic_iff (ok : MaintainOk s) (waits : s.ret = .waiting) :
    OnlyEarlyTraffic s (.thrd expired) ↔ IdleLongEnough (runMaintain algrthm s expired) := by
  have present := ok.present waits
  cases ticks : s.ticks expired with
  | false =>
      have idleOut : (runMaintain algrthm s expired).idleOut = s.idleOut :=
        runMaintain_idleOut ticks
      refine iff_of_true (fun _ on => ?_) (fun out => ?_)
      · rw [ticks] at on
        cases on
      · rw [idleOut, present] at out
        cases out
  | true =>
      have on := ticks
      simp only [MaintainSystem.ticks, Bool.and_eq_true, decide_eq_true_eq,
        List.isEmpty_iff] at ticks
      obtain ⟨⟨here, empty⟩, rfl⟩ := ticks
      have counted := ok.counted waits here
      have quiet := stat_same_iff s.wdn.rxPktStatLast s.current
      rw [← ok.stat waits here] at quiet
      unfold OnlyEarlyTraffic IdleLongEnough
      rw [runMaintain_tick here empty]
      by_cases same : s.wdn.rxPktStat = s.wdn.rxPktStatLast
      · by_cases limit : rxIdleTimeoutSeconds ≤ s.wdn.rxIdleTimeout.toNat
        · have count : quietSeconds (s.current :: s.seconds) = rxIdleTimeoutSeconds + 1 := by
            rw [quietSeconds_cons, if_pos (quiet.mp same), ← counted,
              le_antisymm (ok.below waits here) limit]
          have long : rxIdleTimeoutSeconds ≤ (s.current :: s.seconds).length := by
            have most : quietSeconds (s.current :: s.seconds) ≤ _ := List.countP_le_length
            omega
          rw [secondTick_limit same limit]
          simp only [List.length_cons] at long
          simp [waits, on, same, limit, ← last_quiet_iff count, long]
        · rw [secondTick_quiet same limit]
          simp [limit, goOn, present]
      · rw [secondTick_busy same]
        simp [same, goOn, present]

/-- In every run the station is disconnected as an idle one only behind 1200 quiet seconds,
exactly when no packet came behind the second quiet second of a connection that comes to the
limit. -/
theorem idle_timeout_iff (algrthm : AuthAlgrthm) (w : ApWdn) (que : List ApMsgTag)
    (events : List MaintainEvent) :
    Throughout (maintainStep algrthm) IdleLongEnough (maintainStart w que) events ↔
      EachStep (maintainStep algrthm) OnlyEarlyTraffic (maintainStart w que) events := by
  refine throughout_iff_eachStep MaintainOk ?_ ?_ (maintainOk_start w que) nofun
  · intro s next event ok stepped
    cases event with
    | packet =>
        cases stepped
        refine ⟨ok.begun, ok.counted, ok.below, fun waits here => ?_, ok.present⟩
        simp [ok.stat waits here, UInt32.add_assoc]
    | load tag =>
        cases stepped
        exact ⟨ok.begun, ok.counted, ok.below, ok.stat, ok.present⟩
    | thrd expired =>
        cases stepped
        split_ifs with waits
        · exact ok.thrd waits
        · exact ok
  · intro s event ok good
    cases event with
    | packet => exact iff_of_true trivial ⟨_, rfl, good⟩
    | load tag => exact iff_of_true trivial ⟨_, rfl, good⟩
    | thrd expired =>
        simp only [maintainStep, Option.some.injEq, exists_eq_left']
        split_ifs with waits
        · exact onlyEarlyTraffic_iff ok waits
        · exact iff_of_true (fun still => absurd still waits) good

/-! ## A station that is not idle -/

/-- So many quiet seconds of a connection are over. -/
def idleFor (w : ApWdn) (n : Nat) : MaintainSystem where
  wdn := { w with rxPktStatLast := w.rxPktStat, rxIdleTimeout := UInt32.ofNat n }
  pc := .poll
  ret := .waiting
  que := []
  seconds := List.replicate n 0
  current := 0
  idleOut := false

theorem idleFor_step {w : ApWdn} {n : Nat} (below : n < rxIdleTimeoutSeconds) :
    maintainStep algrthm (idleFor w n) (MaintainEvent.thrd true) =
      some (idleFor w (n + 1)) := by
  have small : n < 2 ^ 32 := lt_trans below (by decide)
  have count : (UInt32.ofNat n).toNat = n := UInt32.toNat_ofNat_of_lt' small
  have next : secondTick (idleFor w n).wdn = goOn (idleFor w (n + 1)).wdn .poll false := by
    rw [secondTick_quiet rfl]
    · simp [idleFor]
    · change ¬ rxIdleTimeoutSeconds ≤ (UInt32.ofNat n).toNat
      omega
  have waits : (idleFor w n).ret = .waiting := rfl
  simp only [maintainStep, waits, if_true]
  rw [runMaintain_tick rfl rfl, next]
  simp [idleFor, goOn, List.replicate_succ]

theorem idleFor_run (algrthm : AuthAlgrthm) (w : ApWdn) {n k : Nat}
    (below : n + k ≤ rxIdleTimeoutSeconds) :
    run (maintainStep algrthm) (idleFor w n) (List.replicate k (MaintainEvent.thrd true)) =
      some (idleFor w (n + k)) := by
  induction k generalizing n with
  | zero => rfl
  | succ k ih =>
      rw [List.replicate_succ, run_cons, idleFor_step (by omega), Option.bind_some,
        ih (by omega)]
      congr 2
      omega

end Run

def associatedWdn : ApWdn := ⟨⟨.assoc, 0, 2, []⟩, 0, 0, 0⟩

/-- 1200 quiet seconds, one with a packet and one more without. -/
def busyLate : List MaintainEvent :=
  MaintainEvent.thrd false ::
    (List.replicate rxIdleTimeoutSeconds (MaintainEvent.thrd true) ++
      [MaintainEvent.packet, MaintainEvent.thrd true, MaintainEvent.thrd true])

theorem idle_timeout_busy :
    ¬ Throughout (maintainStep .openSystem) IdleLongEnough (maintainStart associatedWdn [])
      busyLate := by
  intro long
  obtain ⟨final, ran, good⟩ := long.final
  have begins : maintainStep .openSystem (maintainStart associatedWdn [])
      (MaintainEvent.thrd false) =
        some (idleFor { associatedWdn with state := .unblock8021x } 0) := rfl
  have quiet := idleFor_run .openSystem { associatedWdn with state := .unblock8021x }
    (n := 0) (k := rxIdleTimeoutSeconds) (by simp)
  rw [busyLate, run_cons, begins, Option.bind_some, run_append, quiet, Option.bind_some] at ran
  have last : run (maintainStep .openSystem)
      (idleFor { associatedWdn with state := .unblock8021x } (0 + rxIdleTimeoutSeconds))
      [MaintainEvent.packet, MaintainEvent.thrd true, MaintainEvent.thrd true] =
        some {
          wdn := ⟨{ associatedWdn.toAuthWdn with state := .unblock8021x }, 1, 1, 1201⟩
          pc := .poll
          ret := .ended
          que := []
          seconds := 0 :: 1 :: List.replicate (0 + rxIdleTimeoutSeconds) 0
          current := 0
          idleOut := true } := rfl
  rw [last, Option.some.injEq] at ran
  subst ran
  have limit : rxIdleTimeoutSeconds = 1198 + 1 + 1 := rfl
  have one := (good rfl).2 1 (by
    rw [limit, List.take_succ_cons, List.take_succ_cons]
    exact List.mem_cons_of_mem _ List.mem_cons_self)
  cases one

end Smartchip.Ap
