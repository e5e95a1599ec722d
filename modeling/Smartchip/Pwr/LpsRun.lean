import Smartchip.Pwr.Lps

/-!
# What the firmware is told of low power saving

Over any requests, messages and changes around several interfaces.
-/

namespace Smartchip.Pwr

variable {lpsDelayTime : UInt64}

/-! ## One interface -/

/-- The values of `wf_mcu_set_lps_opt`, the newest first. -/
def lpsOptions (sent : List (LpsCommand × LpsSurroundings × UInt64)) : List Bool :=
  sent.filterMap fun entry =>
    match entry.1 with
    | .lpsOpt sleep => some sleep
    | _ => none

/-- By turns, and to sleep the first time; the newest value is the state. -/
def Alternates : Bool → List Bool → Prop
  | asleep, [] => asleep = false
  | asleep, newest :: older => newest = asleep ∧ Alternates (!asleep) older

/-- What has to be around an interface that goes to sleep. -/
def MaySleep (lpsDelayTime : UInt64) (env : LpsSurroundings) (last : UInt64) : Prop :=
  env.connect = true ∧ env.nicNum = 0 ∧ lpsCheckLpsOk lpsDelayTime env last = true

namespace LpsNic

def asleep (nic : LpsNic) : Bool := nic.pwrCurrentMode ≠ .active

/-- The mode, the flag, the counters and the firmware agree. -/
structure Consistent (lpsDelayTime : UInt64) (nic : LpsNic) : Prop where
  mgnt : nic.pwrMgnt = .max
  mode : nic.pwrCurrentMode = .active ∨ nic.pwrCurrentMode = .max
  flag : nic.bFwCurrentInPsMode = nic.asleep
  options : Alternates nic.asleep (lpsOptions nic.sent)
  entered : nic.lpsEnterCnts = UInt32.ofNat ((lpsOptions nic.sent).count true)
  left : nic.lpsExitCnts = UInt32.ofNat ((lpsOptions nic.sent).count false)
  sleeps : ∀ entry ∈ nic.sent, entry.1 = .lpsOpt true → MaySleep lpsDelayTime entry.2.1 entry.2.2

theorem consistent_init (env : LpsSurroundings) : (lpsInit env).Consistent lpsDelayTime where
  mgnt := rfl
  mode := .inl rfl
  flag := by simp [lpsInit, asleep]
  options := by simp [lpsInit, asleep, lpsOptions, Alternates]
  entered := by simp [lpsInit, lpsOptions]
  left := by simp [lpsInit, lpsOptions]
  sleeps := by simp [lpsInit]

section Steps

variable {nic : LpsNic} (inv : nic.Consistent lpsDelayTime)

include inv

theorem Consistent.lpsExit : (nic.lpsExit lpsDelayTime).Consistent lpsDelayTime := by
  unfold LpsNic.lpsExit
  split
  · rename_i awake
    have sleeping : nic.asleep = true := by simp [asleep, awake.2]
    have options := inv.options
    rw [sleeping] at options
    have eq : nic.lpsSetEnterRegister lpsDelayTime .active 0 = { nic with
        lpsExitCnts := nic.lpsExitCnts + 1
        pwrCurrentMode := .active
        bFwCurrentInPsMode := false
        sent := (.lpsOpt false, nic.env, nic.delayLpsLastTimestamp) :: nic.sent } := by
      simp [lpsSetEnterRegister, awake.2, send]
    rw [eq]
    exact {
      mgnt := inv.mgnt
      mode := .inl rfl
      flag := rfl
      options := ⟨rfl, options⟩
      entered := by simpa [lpsOptions] using inv.entered
      left := by
        have count := inv.left
        simp only [lpsOptions] at count ⊢
        simp [count]
      sleeps := fun entry member sleep => by
        obtain rfl | older := List.mem_cons.mp member
        · cases sleep
        · exact inv.sleeps entry older sleep }
  · exact inv

theorem Consistent.lpsEnter : (nic.lpsEnter lpsDelayTime).Consistent lpsDelayTime := by
  unfold LpsNic.lpsEnter
  split
  · exact inv
  rename_i linked
  split
  · exact inv
  rename_i checked
  split
  · rename_i awake
    have up : nic.asleep = false := by simp [asleep, awake.2]
    have options := inv.options
    rw [up] at options
    have linked : nic.env.connect = true ∧ nic.env.nicNum = 0 := by simpa using linked
    have ok : lpsCheckLpsOk lpsDelayTime nic.env nic.delayLpsLastTimestamp = true := by
      simpa using checked
    have eq : ({ nic with bPowerSaving := true }).lpsSetEnterRegister lpsDelayTime nic.pwrMgnt
        nic.smartLps = { nic with
          bPowerSaving := true
          lpsEnterCnts := nic.lpsEnterCnts + 1
          pwrCurrentMode := .max
          bFwCurrentInPsMode := true
          sent := (.lpsOpt true, nic.env, nic.delayLpsLastTimestamp) :: nic.sent } := by
      simp [lpsSetEnterRegister, inv.mgnt, ok, linked.1, send]
    rw [eq]
    exact {
      mgnt := inv.mgnt
      mode := .inr rfl
      flag := rfl
      options := ⟨rfl, options⟩
      entered := by
        have count := inv.entered
        simp only [lpsOptions] at count ⊢
        simp [count]
      left := by simpa [lpsOptions] using inv.left
      sleeps := fun entry member sleep => by
        obtain rfl | older := List.mem_cons.mp member
        · exact ⟨linked.1, linked.2, ok⟩
        · exact inv.sleeps entry older sleep }
  · exact inv

theorem Consistent.configure : nic.configure.Consistent lpsDelayTime where
  mgnt := inv.mgnt
  mode := inv.mode
  flag := inv.flag
  options := inv.options
  entered := inv.entered
  left := inv.left
  sleeps := fun entry member sleep => by
    simp only [LpsNic.configure, send, List.mem_cons] at member
    obtain rfl | rfl | rfl | rfl | older := member
    · cases sleep
    · cases sleep
    · cases sleep
    · cases sleep
    · exact inv.sleeps entry older sleep

theorem Consistent.lpsCtrlWkHdl (lpsCtrlType : LpsCtrlType) :
    (nic.lpsCtrlWkHdl lpsDelayTime lpsCtrlType).Consistent lpsDelayTime := by
  have stamped : ({ nic with delayLpsLastTimestamp := nic.env.now }).Consistent lpsDelayTime :=
    ⟨inv.mgnt, inv.mode, inv.flag, inv.options, inv.entered, inv.left, inv.sleeps⟩
  unfold LpsNic.lpsCtrlWkHdl
  split
  · exact inv
  · cases lpsCtrlType with
    | enter => exact inv.lpsEnter
    | connect => exact inv.configure.lpsExit
    | specialPacket => exact stamped.lpsExit
    | _ => exact inv.lpsExit

theorem Consistent.pending (pending : Option LpsCtrlType) :
    ({ nic with pending }).Consistent lpsDelayTime :=
  ⟨inv.mgnt, inv.mode, inv.flag, inv.options, inv.entered, inv.left, inv.sleeps⟩

theorem Consistent.env (env : LpsSurroundings) : ({ nic with env }).Consistent lpsDelayTime :=
  ⟨inv.mgnt, inv.mode, inv.flag, inv.options, inv.entered, inv.left, inv.sleeps⟩

theorem Consistent.lpsRequest (lpsCtrlType : LpsCtrlType) (enqueue : Bool) :
    (nic.lpsRequest lpsDelayTime lpsCtrlType enqueue).Consistent lpsDelayTime := by
  unfold LpsNic.lpsRequest lpsStart
  split
  · split
    · exact inv
    · split
      · exact inv
      · exact inv.pending _
  · exact inv.lpsCtrlWkHdl lpsCtrlType

theorem Consistent.lpsWakeup (lpsCtrlType : LpsCtrlType) (enqueue : Bool) :
    (nic.lpsWakeup lpsDelayTime lpsCtrlType enqueue).Consistent lpsDelayTime := by
  have asked := inv.lpsRequest lpsCtrlType enqueue
  unfold LpsNic.lpsWakeup
  split_ifs
  · exact inv
  · exact inv
  · exact asked
  · exact inv
  · exact asked
  · exact inv

theorem Consistent.lpsSleep (lpsCtrlType : LpsCtrlType) (enqueue : Bool) :
    (nic.lpsSleep lpsDelayTime lpsCtrlType enqueue).Consistent lpsDelayTime := by
  have asked := inv.lpsRequest lpsCtrlType enqueue
  unfold LpsNic.lpsSleep
  split_ifs
  · exact inv
  · exact inv
  · exact inv
  · exact inv
  · exact asked

end Steps

end LpsNic

/-! ## The configuration -/

/-- The commands other than `wf_mcu_set_lps_opt`, the newest first. -/
def lpsConfigs (sent : List (LpsCommand × LpsSurroundings × UInt64)) : List LpsCommand :=
  sent.filterMap fun entry =>
    match entry.1 with
    | .lpsOpt _ => none
    | command => some command

def lpsConfiguration : List LpsCommand := [.fwLpsGet, .fwRsvdPage, .fwLpsConfig, .lpsConfig]

namespace LpsNic

variable (lpsDelayTime) (nic : LpsNic)

def configs : List LpsCommand := lpsConfigs nic.sent

/-- No configuration is sent, and the message is left alone. -/
structure Silent (before after : LpsNic) : Prop where
  configs : after.configs = before.configs
  pending : after.pending = before.pending

theorem silent_lpsSetEnterRegister (lpsMode : PowerMgnt) (smartLps : UInt8) :
    Silent nic (nic.lpsSetEnterRegister lpsDelayTime lpsMode smartLps) := by
  unfold lpsSetEnterRegister
  split
  · exact ⟨rfl, rfl⟩
  · split
    · exact ⟨rfl, rfl⟩
    · dsimp only
      split
      · exact ⟨rfl, rfl⟩
      · exact ⟨rfl, rfl⟩

theorem silent_lpsExit : Silent nic (nic.lpsExit lpsDelayTime) := by
  unfold lpsExit
  split
  · exact silent_lpsSetEnterRegister lpsDelayTime nic _ _
  · exact ⟨rfl, rfl⟩

theorem silent_lpsEnter : Silent nic (nic.lpsEnter lpsDelayTime) := by
  have set := silent_lpsSetEnterRegister lpsDelayTime { nic with bPowerSaving := true } nic.pwrMgnt
    nic.smartLps
  unfold lpsEnter
  split
  · exact ⟨rfl, rfl⟩
  · split
    · exact ⟨rfl, rfl⟩
    · split
      · exact ⟨set.configs, set.pending⟩
      · exact ⟨rfl, rfl⟩

theorem silent_lpsCtrlWkHdl {lpsCtrlType : LpsCtrlType} (other : lpsCtrlType ≠ .connect) :
    Silent nic (nic.lpsCtrlWkHdl lpsDelayTime lpsCtrlType) := by
  unfold lpsCtrlWkHdl
  split
  · exact ⟨rfl, rfl⟩
  · cases lpsCtrlType with
    | connect => exact absurd rfl other
    | enter => exact silent_lpsEnter lpsDelayTime nic
    | specialPacket =>
        have exit := silent_lpsExit lpsDelayTime
          { nic with delayLpsLastTimestamp := nic.env.now }
        exact ⟨exit.configs, exit.pending⟩
    | _ => exact silent_lpsExit lpsDelayTime nic

theorem lpsCtrlWkHdl_connect :
    (nic.lpsCtrlWkHdl lpsDelayTime .connect).configs =
        (if nic.env.workMode = .adhoc then nic.configs else lpsConfiguration ++ nic.configs) ∧
      (nic.lpsCtrlWkHdl lpsDelayTime .connect).pending = nic.pending := by
  have exit := silent_lpsExit lpsDelayTime nic.configure
  unfold lpsCtrlWkHdl
  split
  · exact ⟨rfl, rfl⟩
  · exact ⟨exit.configs, exit.pending⟩

/-- No configuration is sent, and the message is left alone or is one that asks for none. -/
structure Quiet (before after : LpsNic) : Prop where
  configs : after.configs = before.configs
  pending : after.pending = before.pending ∨ after.pending ≠ some .connect

theorem quiet_refl : Quiet nic nic := ⟨rfl, .inl rfl⟩

theorem quiet_lpsRequest {lpsCtrlType : LpsCtrlType} (other : lpsCtrlType ≠ .connect)
    (enqueue : Bool) : Quiet nic (nic.lpsRequest lpsDelayTime lpsCtrlType enqueue) := by
  unfold lpsRequest lpsStart
  split
  · split
    · exact quiet_refl nic
    · split
      · exact quiet_refl nic
      · exact ⟨rfl, .inr (by simpa using other)⟩
  · have silent := silent_lpsCtrlWkHdl lpsDelayTime nic other
    exact ⟨silent.configs, .inl silent.pending⟩

theorem quiet_lpsWakeup {lpsCtrlType : LpsCtrlType} (other : lpsCtrlType ≠ .connect)
    (enqueue : Bool) : Quiet nic (nic.lpsWakeup lpsDelayTime lpsCtrlType enqueue) := by
  have asked := quiet_lpsRequest lpsDelayTime nic other enqueue
  unfold lpsWakeup
  split_ifs
  · exact quiet_refl nic
  · exact quiet_refl nic
  · exact asked
  · exact quiet_refl nic
  · exact asked
  · exact quiet_refl nic

theorem quiet_lpsSleep (lpsCtrlType : LpsCtrlType) (enqueue : Bool) :
    Quiet nic (nic.lpsSleep lpsDelayTime lpsCtrlType enqueue) := by
  unfold lpsSleep
  split_ifs with mode connected denied other
  · exact quiet_refl nic
  · exact quiet_refl nic
  · exact quiet_refl nic
  · exact quiet_refl nic
  · have enter : lpsCtrlType = .enter := by simpa using other
    exact quiet_lpsRequest lpsDelayTime nic (by rw [enter]; decide) enqueue

end LpsNic

/-! ## Several interfaces -/

section System

variable {Nic : Type*} [DecidableEq Nic] {s : LpsSystem Nic}

@[simp] theorem nics_set (n m : Nic) (nic : LpsNic) :
    (s.set n nic).nics m = if m = n then nic else s.nics m := rfl

theorem set_all {P : LpsNic → Prop} {n : Nic} {nic : LpsNic} (all : ∀ m, P (s.nics m))
    (new : P nic) (m : Nic) : P ((s.set n nic).nics m) := by
  rw [nics_set]
  split
  · exact new
  · exact all m

theorem lpsCtrlStateHdl_consistent (all : ∀ m, (s.nics m).Consistent lpsDelayTime) (n : Nic)
    (lpsCtrlType : LpsCtrlType) (m : Nic) :
    ((lpsCtrlStateHdl lpsDelayTime s n lpsCtrlType).nics m).Consistent lpsDelayTime := by
  unfold lpsCtrlStateHdl
  split
  · have first := set_all all ((all n).lpsCtrlWkHdl .connect) (n := n)
    exact set_all (s := { s.set n _ with conFlag := false }) first
      ((first n).lpsCtrlWkHdl lpsCtrlType) m
  · exact set_all all ((all n).lpsCtrlWkHdl lpsCtrlType) m

theorem lpsStep_consistent (all : ∀ m, (s.nics m).Consistent lpsDelayTime) (event : LpsEvent Nic)
    (m : Nic) : ((lpsStep lpsDelayTime s event).nics m).Consistent lpsDelayTime := by
  cases event with
  | surroundings n env => exact set_all all ((all n).env env) m
  | wakeup n lpsCtrlType enqueue => exact set_all all ((all n).lpsWakeup lpsCtrlType enqueue) m
  | sleep n lpsCtrlType enqueue => exact set_all all ((all n).lpsSleep lpsCtrlType enqueue) m
  | handle n =>
      simp only [lpsStep]
      split
      · exact all m
      · exact lpsCtrlStateHdl_consistent (set_all all ((all n).pending none)) n _ m
  | discard n => exact set_all all ((all n).pending none) m

/-- Whatever is asked of however many interfaces, and whatever changes around them: each tells the
firmware by turns to sleep and to wake up, its own mode is what it told last, it counts both, and
it tells it to sleep only while it is the first interface, is connected as a station, has its group
key where it needs one and has let the delay after a special packet pass. -/
theorem lps_agrees_with_firmware (lpsDelayTime : UInt64) (env : Nic → LpsSurroundings)
    (events : List (LpsEvent Nic)) (n : Nic) :
    ((lpsRun lpsDelayTime (lpsSystemInit env) events).nics n).Consistent lpsDelayTime := by
  have kept : ∀ s : LpsSystem Nic, (∀ m, (s.nics m).Consistent lpsDelayTime) →
      ((lpsRun lpsDelayTime s events).nics n).Consistent lpsDelayTime := by
    induction events with
    | nil => exact fun s all => all n
    | cons event events ih => exact fun s all => ih _ (lpsStep_consistent all event)
  exact kept _ fun m => LpsNic.consistent_init (env m)

/-- At most one interface is configured, and only once. -/
structure Configured (s : LpsSystem Nic) : Prop where
  fresh : s.conFlag = true → ∀ n, (s.nics n).configs = []
  batch : ∀ n, (s.nics n).configs = [] ∨ (s.nics n).configs = lpsConfiguration
  single : ∀ n m, (s.nics n).configs ≠ [] → (s.nics m).configs ≠ [] → n = m
  pending : ∀ n, (s.nics n).pending ≠ some .connect

theorem Configured.set (inv : Configured s) {n : Nic} {nic : LpsNic}
    (quiet : LpsNic.Quiet (s.nics n) nic) : Configured (s.set n nic) := by
  have same : ∀ m, ((s.set n nic).nics m).configs = (s.nics m).configs := by
    intro m
    rw [nics_set]
    split
    · rename_i eq
      rw [eq, quiet.configs]
    · rfl
  refine ⟨fun flag m => ?_, fun m => ?_, fun m k => ?_, ?_⟩
  · rw [same]
    exact inv.fresh flag m
  · rw [same]
    exact inv.batch m
  · rw [same, same]
    exact inv.single m k
  · intro m
    rw [nics_set]
    split
    · obtain kept | other := quiet.pending
      · rw [kept]
        exact inv.pending n
      · exact other
    · exact inv.pending m

/-- The first message configures its interface, and clears the flag for all of them. -/
theorem Configured.connect (inv : Configured s) (flag : s.conFlag = true) (n : Nic) :
    Configured
      { s.set n ((s.nics n).lpsCtrlWkHdl lpsDelayTime .connect) with conFlag := false } := by
  have none_yet := inv.fresh flag
  have configs : ∀ m, ((s.set n ((s.nics n).lpsCtrlWkHdl lpsDelayTime .connect)).nics m).configs =
      if m = n ∧ (s.nics n).env.workMode ≠ .adhoc then lpsConfiguration else [] := by
    intro m
    rw [nics_set]
    by_cases here : m = n
    · rw [if_pos here, (LpsNic.lpsCtrlWkHdl_connect _ _).1, none_yet]
      by_cases adhoc : (s.nics n).env.workMode = .adhoc
      · simp [adhoc]
      · simp [adhoc, here]
    · simp [here, none_yet]
  refine ⟨nofun, fun m => ?_, fun m k => ?_, fun m => ?_⟩
  · show _ = _ ∨ _ = _
    rw [configs]
    split
    · exact .inr rfl
    · exact .inl rfl
  · show _ ≠ _ → _ ≠ _ → _
    rw [configs, configs]
    intro left right
    split_ifs at left right with first second
    · exact first.1.trans second.1.symm
    · exact absurd rfl right
    · exact absurd rfl left
    · exact absurd rfl left
  · show (ite _ _ _ : LpsNic).pending ≠ _
    split
    · rw [(LpsNic.lpsCtrlWkHdl_connect _ _).2]
      exact inv.pending n
    · exact inv.pending m

theorem lpsCtrlStateHdl_configured (inv : Configured s) (n : Nic) {lpsCtrlType : LpsCtrlType}
    (other : lpsCtrlType ≠ .connect) :
    Configured (lpsCtrlStateHdl lpsDelayTime s n lpsCtrlType) := by
  have handled (s : LpsSystem Nic) (inv : Configured s) :
      Configured (s.set n ((s.nics n).lpsCtrlWkHdl lpsDelayTime lpsCtrlType)) := by
    have silent := LpsNic.silent_lpsCtrlWkHdl lpsDelayTime (s.nics n) other
    exact inv.set ⟨silent.configs, .inl silent.pending⟩
  unfold lpsCtrlStateHdl
  split
  · rename_i flag
    exact handled _ (inv.connect flag n)
  · exact handled s inv

theorem lpsStep_configured (inv : Configured s) {event : LpsEvent Nic}
    (caller : ∀ n enqueue, event ≠ .wakeup n .connect enqueue) :
    Configured (lpsStep lpsDelayTime s event) := by
  cases event with
  | surroundings n env => exact inv.set ⟨rfl, .inl rfl⟩
  | wakeup n lpsCtrlType enqueue =>
      have other : lpsCtrlType ≠ .connect := by
        intro connect
        exact caller n enqueue (by rw [connect])
      exact inv.set (LpsNic.quiet_lpsWakeup _ _ other enqueue)
  | sleep n lpsCtrlType enqueue => exact inv.set (LpsNic.quiet_lpsSleep _ _ _ _)
  | handle n =>
      simp only [lpsStep]
      split
      · exact inv
      · rename_i lpsCtrlType pending
        have other : lpsCtrlType ≠ .connect := by
          intro connect
          exact inv.pending n (by rw [pending, connect])
        have taken : LpsNic.Quiet (s.nics n) { s.nics n with pending := none } :=
          ⟨rfl, .inr (by simp)⟩
        exact lpsCtrlStateHdl_configured (inv.set taken) n other
  | discard n => exact inv.set ⟨rfl, .inr (by simp)⟩

/-- As long as nobody asks to wake up for `LPS_CTRL_CONNECT`, the firmware gets the configuration
of low power saving and the reserved pages for one interface only and once only, however often and
to whatever the interfaces connect. -/
theorem lps_configured_once (lpsDelayTime : UInt64) (env : Nic → LpsSurroundings)
    (events : List (LpsEvent Nic)) (callers : ∀ n enqueue, .wakeup n .connect enqueue ∉ events) :
    Configured (lpsRun lpsDelayTime (lpsSystemInit env) events) := by
  have kept : ∀ s : LpsSystem Nic, Configured s → Configured (lpsRun lpsDelayTime s events) := by
    induction events with
    | nil => exact fun s inv => inv
    | cons event events ih =>
        intro s inv
        refine ih (fun n enqueue member => callers n enqueue (List.mem_cons_of_mem _ member)) _
          (lpsStep_configured inv fun n enqueue eq => ?_)
        exact callers n enqueue (by rw [eq]; exact List.mem_cons_self)
  refine kept _ ⟨fun _ _ => rfl, fun _ => .inl rfl, fun _ _ some _ => absurd rfl some, fun _ => ?_⟩
  exact nofun

/-- A station that has its message handled twice, and connects anew in between. -/
def lpsStation : LpsSurroundings where
  isUp := true
  cannotRun := false
  workMode := .infra
  nicNum := 0
  connect := true
  auth8021X := false
  installGrpkey := false
  now := 1000

def lpsTwice : List (LpsEvent Bool) :=
  [.sleep false .enter true, .handle false,
    .surroundings false { lpsStation with connect := false }, .surroundings false lpsStation,
    .wakeup false .trafficBusy true, .handle false]

theorem lps_configured_once_connected_twice :
    Configured (lpsRun 250 (lpsSystemInit fun _ => lpsStation) lpsTwice) :=
  lps_configured_once 250 (fun _ => lpsStation) lpsTwice (by simp [lpsTwice])

/-! ## A lost connection -/

/-- The interface does not connect, and nobody says that it is not linked. -/
def Lost (n : Nic) : LpsEvent Nic → Prop
  | .surroundings m env => m = n → env.connect = false
  | .wakeup m lpsCtrlType _ => m = n → lpsCtrlType ≠ .noLinked
  | _ => True

theorem lpsWakeup_lost {nic : LpsNic} (away : nic.env.connect = false) {lpsCtrlType : LpsCtrlType}
    (linked : lpsCtrlType ≠ .noLinked) (enqueue : Bool) :
    nic.lpsWakeup lpsDelayTime lpsCtrlType enqueue = nic := by
  simp [LpsNic.lpsWakeup, away, linked]

theorem lpsSleep_lost {nic : LpsNic} (away : nic.env.connect = false) (lpsCtrlType : LpsCtrlType)
    (enqueue : Bool) : nic.lpsSleep lpsDelayTime lpsCtrlType enqueue = nic := by
  simp [LpsNic.lpsSleep, away]

theorem lpsCtrlStateHdl_other {n m : Nic} (other : m ≠ n) (lpsCtrlType : LpsCtrlType) :
    (lpsCtrlStateHdl lpsDelayTime s n lpsCtrlType).nics m = s.nics m := by
  unfold lpsCtrlStateHdl
  split
  · simp only [nics_set, if_neg other]
  · simp only [nics_set, if_neg other]

/-- What is left of a message that was queued before. -/
theorem lpsStep_lost {n : Nic} {event : LpsEvent Nic} (away : (s.nics n).env.connect = false)
    (quiet : (s.nics n).pending = none ∨ event ≠ .handle n) (lost : Lost n event) :
    ∃ (env : LpsSurroundings) (pending : Option LpsCtrlType), env.connect = false ∧
      (pending = none ∨ pending = (s.nics n).pending) ∧
      (lpsStep lpsDelayTime s event).nics n = { s.nics n with env, pending } := by
  cases event with
  | surroundings m env =>
      by_cases here : n = m
      · subst here
        exact ⟨env, _, lost rfl, .inr rfl, by simp [lpsStep]⟩
      · exact ⟨(s.nics n).env, _, away, .inr rfl, by simp [lpsStep, here]⟩
  | wakeup m lpsCtrlType enqueue =>
      refine ⟨(s.nics n).env, _, away, .inr rfl, ?_⟩
      by_cases here : n = m
      · subst here
        simp [lpsStep, lpsWakeup_lost away (lost rfl)]
      · simp [lpsStep, here]
  | sleep m lpsCtrlType enqueue =>
      refine ⟨(s.nics n).env, _, away, .inr rfl, ?_⟩
      by_cases here : n = m
      · subst here
        simp [lpsStep, lpsSleep_lost away]
      · simp [lpsStep, here]
  | handle m =>
      refine ⟨(s.nics n).env, _, away, .inr rfl, ?_⟩
      simp only [lpsStep]
      split
      · rfl
      · rename_i some_pending
        have other : n ≠ m := by
          intro here
          subst here
          simp [some_pending] at quiet
        rw [lpsCtrlStateHdl_other other, nics_set, if_neg other]
  | discard m =>
      by_cases here : n = m
      · subst here
        exact ⟨(s.nics n).env, none, away, .inl rfl, by simp [lpsStep]⟩
      · exact ⟨(s.nics n).env, _, away, .inr rfl, by simp [lpsStep, here]⟩

/-- A station that loses its connection while it sleeps stays as it is, and the firmware hears
nothing, unless a message is handled that was queued before: besides that only
`LPS_CTRL_NO_LINKED` or a new connection can wake it up. -/
theorem lps_lost_connection (lpsDelayTime : UInt64) (s : LpsSystem Nic) (n : Nic)
    (events : List (LpsEvent Nic)) (away : (s.nics n).env.connect = false)
    (quiet : (s.nics n).pending = none ∨ .handle n ∉ events)
    (lost : ∀ event ∈ events, Lost n event) :
    ∃ (env : LpsSurroundings) (pending : Option LpsCtrlType), env.connect = false ∧
      (pending = none ∨ pending = (s.nics n).pending) ∧
      (lpsRun lpsDelayTime s events).nics n = { s.nics n with env, pending } := by
  induction events generalizing s with
  | nil => exact ⟨(s.nics n).env, _, away, .inr rfl, rfl⟩
  | cons event events ih =>
      obtain ⟨env, pending, still, left, eq⟩ :
          ∃ (env : LpsSurroundings) (pending : Option LpsCtrlType), env.connect = false ∧
            (pending = none ∨ pending = (s.nics n).pending) ∧
            (lpsStep lpsDelayTime s event).nics n = { s.nics n with env, pending } := by
        refine lpsStep_lost away (quiet.imp_right fun none here => none ?_)
          (lost event List.mem_cons_self)
        rw [here]
        exact List.mem_cons_self
      have after : ((lpsStep lpsDelayTime s event).nics n).pending = none ∨
          .handle n ∉ events := by
        rw [eq]
        refine quiet.imp (fun none => ?_) fun none later => none (List.mem_cons_of_mem _ later)
        exact left.elim id fun same => same.trans none
      obtain ⟨last, message, ends, kept, rest⟩ := ih (lpsStep lpsDelayTime s event)
        (by rw [eq]; exact still) after fun later member => lost later (List.mem_cons_of_mem _ member)
      rw [eq] at rest kept
      refine ⟨last, message, ends, ?_, rest⟩
      rcases kept with none | same
      · exact .inl none
      · rw [same]
        exact left

/-- Asleep, and then cut off by the access point, with a message that is still pending. -/
def lpsCutOff : LpsSystem Bool :=
  lpsRun 250 (lpsSystemInit fun _ => lpsStation)
    [.sleep false .enter false, .wakeup false .trafficBusy true,
      .surroundings false { lpsStation with connect := false }]

theorem lps_lost_connection_asleep :
    ((lpsRun 250 lpsCutOff [.wakeup false .scan false, .discard false, .sleep false .enter true]).nics
      false).asleep = true := by
  have before : (lpsCutOff.nics false).asleep = true := by decide
  obtain ⟨env, pending, -, -, eq⟩ := lps_lost_connection 250 lpsCutOff false
    [.wakeup false .scan false, .discard false, .sleep false .enter true] (by decide)
    (.inr (by simp)) (by simp [Lost])
  rw [eq]
  exact before

end System

end Smartchip.Pwr
