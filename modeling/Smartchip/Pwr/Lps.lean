import Mathlib.Data.List.Basic

/-!
# Low power saving

The mode control of `nic/lps.c`, built with `USE_M0_LPS_INTERFACES`: requests to wake up and to
sleep, their message to the MLME thread, and what the firmware is told.
-/

namespace Smartchip.Pwr

/-! ## The state of an interface -/

/-- `sys_work_mode_e`. -/
inductive LpsWorkMode where
  | auto
  | adhoc
  | infra
  | master
  | repeater
  | second
  | monitor
  | mesh
deriving DecidableEq, Repr

/-- `enum Power_Mgnt`, as far as the driver uses it. -/
inductive PowerMgnt where
  | active
  | min
  | max
  | dtim
deriving DecidableEq, Repr

/-- `enum LPS_CTRL_TYPE`; `other` stands for any other byte. -/
inductive LpsCtrlType where
  | scan
  | joinbss
  | connect
  | disconnect
  | specialPacket
  | leave
  | trafficBusy
  | txTrafficLeave
  | rxTrafficLeave
  | enter
  | leaveCfg80211Pwrmgmt
  | noLinked
  | other
deriving DecidableEq, Repr

/-- What the functions read of the interface and do not write. -/
structure LpsSurroundings where
  isUp : Bool
  cannotRun : Bool
  workMode : LpsWorkMode
  nicNum : Nat
  connect : Bool
  auth8021X : Bool
  installGrpkey : Bool
  now : UInt64
deriving DecidableEq, Repr

/-- A command to the firmware. -/
inductive LpsCommand where
  | lpsConfig
  | fwLpsConfig
  | fwRsvdPage
  | fwLpsGet
  | lpsOpt (sleep : Bool)
deriving DecidableEq, Repr

/-- `pwr_info_st`, with the message of `WF_MLME_TAG_LPS` that is pending, of which there is at most
one, and the commands so far, each with what was around it; the newest is the first. -/
structure LpsNic where
  env : LpsSurroundings
  lpsEnterCnts : UInt32
  lpsExitCnts : UInt32
  lpsIdleCnts : UInt8
  pwrMgnt : PowerMgnt
  pwrCurrentMode : PowerMgnt
  bFwCurrentInPsMode : Bool
  smartLps : UInt8
  delayLpsLastTimestamp : UInt64
  lpsDeny : UInt32
  bPowerSaving : Bool
  pending : Option LpsCtrlType
  sent : List (LpsCommand × LpsSurroundings × UInt64)
deriving DecidableEq, Repr

/-- `wf_lps_init`. -/
def lpsInit (env : LpsSurroundings) : LpsNic where
  env
  lpsEnterCnts := 0
  lpsExitCnts := 0
  lpsIdleCnts := 0
  pwrMgnt := .max
  pwrCurrentMode := .active
  bFwCurrentInPsMode := false
  smartLps := 2
  delayLpsLastTimestamp := 0
  lpsDeny := 0
  bPowerSaving := false
  pending := none
  sent := []

/-! ## Enter and exit -/

section Control

variable (lpsDelayTime : UInt64)

/-- `lps_check_lps_ok`. -/
def lpsCheckLpsOk (env : LpsSurroundings) (delayLpsLastTimestamp : UInt64) : Bool :=
  if env.now - delayLpsLastTimestamp < lpsDelayTime then false
  else if env.workMode ≠ .infra then false
  else if env.auth8021X = true ∧ env.installGrpkey = false then false
  else true

namespace LpsNic

variable (nic : LpsNic)

def send (command : LpsCommand) : LpsNic :=
  { nic with sent := (command, nic.env, nic.delayLpsLastTimestamp) :: nic.sent }

/-- `lps_set_enter_register`. -/
def lpsSetEnterRegister (lpsMode : PowerMgnt) (smartLps : UInt8) : LpsNic :=
  if nic.pwrCurrentMode = lpsMode ∧ nic.pwrMgnt = .active then nic
  else if lpsMode = .active then
    let nic := { nic with lpsExitCnts := nic.lpsExitCnts + 1, pwrCurrentMode := lpsMode }
    { nic.send (.lpsOpt false) with bFwCurrentInPsMode := false }
  else
    let nic :=
      if lpsCheckLpsOk lpsDelayTime nic.env nic.delayLpsLastTimestamp ∧ nic.env.connect then
        { nic with lpsEnterCnts := nic.lpsEnterCnts + 1 }
      else nic
    let nic := { nic with pwrCurrentMode := nic.pwrMgnt, smartLps, bFwCurrentInPsMode := true }
    nic.send (.lpsOpt true)

/-- `lps_enter`. -/
def lpsEnter : LpsNic :=
  if ¬(nic.env.connect = true ∧ nic.env.nicNum = 0) then nic
  else if lpsCheckLpsOk lpsDelayTime nic.env nic.delayLpsLastTimestamp = false then nic
  else if nic.pwrMgnt ≠ .active ∧ nic.pwrCurrentMode = .active then
    ({ nic with bPowerSaving := true }).lpsSetEnterRegister lpsDelayTime nic.pwrMgnt nic.smartLps
  else nic

/-- `lps_exit`. -/
def lpsExit : LpsNic :=
  if nic.pwrMgnt ≠ .active ∧ nic.pwrCurrentMode ≠ .active then
    nic.lpsSetEnterRegister lpsDelayTime .active 0
  else nic

/-- The commands of `LPS_CTRL_CONNECT`. -/
def configure : LpsNic :=
  let nic := { nic with lpsIdleCnts := 0 }
  (((nic.send .lpsConfig).send .fwLpsConfig).send .fwRsvdPage).send .fwLpsGet

/-- `wf_lps_ctrl_wk_hdl`. -/
def lpsCtrlWkHdl (lpsCtrlType : LpsCtrlType) : LpsNic :=
  if nic.env.workMode = .adhoc then nic
  else
    match lpsCtrlType with
    | .enter => nic.lpsEnter lpsDelayTime
    | .connect => nic.configure.lpsExit lpsDelayTime
    | .specialPacket =>
        ({ nic with delayLpsLastTimestamp := nic.env.now }).lpsExit lpsDelayTime
    | _ => nic.lpsExit lpsDelayTime

/-- `wf_lps_start`: the only message of its kind may be pending already. -/
def lpsStart (lpsCtrlType : LpsCtrlType) : LpsNic :=
  if nic.env.isUp = false then nic
  else
    match nic.pending with
    | some _ => nic
    | none => { nic with pending := some lpsCtrlType }

/-- What `wf_lps_wakeup` and `wf_lps_sleep` end with. -/
def lpsRequest (lpsCtrlType : LpsCtrlType) (enqueue : Bool) : LpsNic :=
  if enqueue then nic.lpsStart lpsCtrlType else nic.lpsCtrlWkHdl lpsDelayTime lpsCtrlType

/-- `wf_lps_wakeup`. -/
def lpsWakeup (lpsCtrlType : LpsCtrlType) (enqueue : Bool) : LpsNic :=
  if nic.env.cannotRun then nic
  else if lpsCtrlType = .enter then nic
  else if lpsCtrlType = .noLinked then nic.lpsRequest lpsDelayTime lpsCtrlType enqueue
  else if nic.env.connect = false then nic
  else if nic.env.nicNum = 0 then nic.lpsRequest lpsDelayTime lpsCtrlType enqueue
  else nic

/-- `wf_lps_sleep`. -/
def lpsSleep (lpsCtrlType : LpsCtrlType) (enqueue : Bool) : LpsNic :=
  if nic.env.workMode ≠ .infra then nic
  else if nic.env.connect = false then nic
  else if nic.lpsDeny ≠ 0 then nic
  else if lpsCtrlType ≠ .enter then nic
  else nic.lpsRequest lpsDelayTime lpsCtrlType enqueue

end LpsNic

/-! ## Several interfaces -/

/-- The interfaces, and the flag that `wf_lps_ctrl_state_hdl` keeps for all of them. -/
structure LpsSystem (Nic : Type*) where
  nics : Nic → LpsNic
  conFlag : Bool

def lpsSystemInit {Nic : Type*} (env : Nic → LpsSurroundings) : LpsSystem Nic where
  nics := fun n => lpsInit (env n)
  conFlag := true

inductive LpsEvent (Nic : Type*) where
  | surroundings (n : Nic) (env : LpsSurroundings)
  | wakeup (n : Nic) (lpsCtrlType : LpsCtrlType) (enqueue : Bool)
  | sleep (n : Nic) (lpsCtrlType : LpsCtrlType) (enqueue : Bool)
  | handle (n : Nic)
  | discard (n : Nic)

variable {Nic : Type*} [DecidableEq Nic]

def LpsSystem.set (s : LpsSystem Nic) (n : Nic) (nic : LpsNic) : LpsSystem Nic :=
  { s with nics := fun m => if m = n then nic else s.nics m }

/-- `wf_lps_ctrl_state_hdl`. -/
def lpsCtrlStateHdl (s : LpsSystem Nic) (n : Nic) (lpsCtrlType : LpsCtrlType) : LpsSystem Nic :=
  let s :=
    if s.conFlag then
      { s.set n ((s.nics n).lpsCtrlWkHdl lpsDelayTime .connect) with conFlag := false }
    else s
  s.set n ((s.nics n).lpsCtrlWkHdl lpsDelayTime lpsCtrlType)

/-- The MLME thread takes the message and either handles it or, in a state where it does not look
for it, deletes it; everything else may happen at any time, a whole function at a time. -/
def lpsStep (s : LpsSystem Nic) : LpsEvent Nic → LpsSystem Nic
  | .surroundings n env => s.set n { s.nics n with env }
  | .wakeup n lpsCtrlType enqueue =>
      s.set n ((s.nics n).lpsWakeup lpsDelayTime lpsCtrlType enqueue)
  | .sleep n lpsCtrlType enqueue =>
      s.set n ((s.nics n).lpsSleep lpsDelayTime lpsCtrlType enqueue)
  | .handle n =>
      match (s.nics n).pending with
      | none => s
      | some lpsCtrlType =>
          lpsCtrlStateHdl lpsDelayTime (s.set n { s.nics n with pending := none }) n lpsCtrlType
  | .discard n => s.set n { s.nics n with pending := none }

def lpsRun (s : LpsSystem Nic) (events : List (LpsEvent Nic)) : LpsSystem Nic :=
  events.foldl (lpsStep lpsDelayTime) s

end Control

end Smartchip.Pwr
