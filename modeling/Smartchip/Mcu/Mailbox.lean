import Smartchip.Foundation.Mutex
import Smartchip.Foundation.Run

/-!
# The mailbox of the firmware

`wf_io_write_cmd_by_mailbox`, `wf_io_write_cmd_by_mailbox_try` and `wf_io_write_cmd_by_txd` of
`nic/nic_io.c`, which run in any number of threads, with `wf_mcu_cmd_get_status` of
`nic/mcu_cmd.c`.  The threads share the registers and `mcu_hw_access_lock`.
-/

namespace Smartchip.Mcu

open Smartchip.Foundation

def wfReturnOk : Int := 0

def wfReturnFail : Int := -1

def wfReturnRemovedFail : Int := -2

def mailboxRegStart : UInt32 := 0x300

def mailboxArgStart : UInt32 := 0x304

def wfMailboxIntFinish : UInt32 := 0x3e8

def wfMailboxRegInt : UInt32 := 0x3f0

def umsgOpsHalDwFw : UInt32 := 0x49

inductive NicType where
  | usb
  | sdio
  deriving DecidableEq

inductive McuCall where
  | mailbox
  | mailboxTry
  | txd
  deriving DecidableEq

/-- How often a command is written to the mailbox when the firmware does not answer. -/
def McuCall.tries : McuCall → Nat
  | .mailbox => 2
  | .mailboxTry => 1
  | .txd => 0

/-- The step that a thread takes next.  The number of `writeArg` and `readArg` is that of the
word, and of `poll` how often the register may still be read. -/
inductive McuPc where
  | enter
  | writeCmd
  | writeSendLen
  | writeRecvLen
  | writeArg (k : Nat)
  | intFinish
  | intTrigger
  | poll (timeout : Nat)
  | readArg (k : Nat)
  | writeTxd
  | unlock
  | done
  deriving DecidableEq

def McuPc.stage : McuPc → Stage
  | .enter => .waiting
  | .writeCmd | .writeSendLen | .writeRecvLen | .writeArg _ | .intFinish | .intTrigger
  | .poll _ | .readArg _ | .writeTxd | .unlock => .holding
  | .done => .off

/-- The arguments of a call.  `sendBuf` is what lies behind the pointer, and `wfHz` is
`WF_HZ`. -/
structure McuArgs where
  call : McuCall
  cmd : UInt32
  sendBuf : Option (Nat → UInt32)
  sendLen : Nat
  recvBuf : Bool
  recvLen : Nat
  nicType : NicType
  wfHz : Nat

/-- `sent` is how far `send_buf` has been moved, which a second try does not set back. -/
structure McuThread extends McuArgs where
  pc : McuPc
  tryCnt : Nat
  sent : Nat
  received : List UInt32
  ret : Int

/-- An access to a register, or the function behind `nic_write_cmd`. -/
inductive McuIo where
  | write32 (addr value : UInt32)
  | write8 (addr : UInt32) (value : UInt8)
  | read32 (addr : UInt32)
  | nicWriteCmd (cmd : UInt32)
  deriving DecidableEq

/-- What an access answers, and whether the driver has been stopped or the device removed. -/
structure IoAnswer where
  ret : Int
  data : UInt32
  cannotRun : Bool
  deriving DecidableEq

/-! ## One thread -/

def leave (t : McuThread) (ret : Int) : McuThread := { t with pc := .unlock, ret }

def sendArg (t : McuThread) (k : Nat) : McuThread :=
  { t with pc := if k < t.sendLen ∧ t.sendBuf.isSome then .writeArg k else .intFinish }

def recvArg (t : McuThread) (k : Nat) : McuThread :=
  if k < t.recvLen ∧ t.recvBuf then { t with pc := .readArg k } else leave t wfReturnOk

/-- Behind `wf_mcu_cmd_get_status`. -/
def statusGot (t : McuThread) (ret : Int) : McuThread :=
  if ret = wfReturnFail then
    if t.tryCnt + 1 < t.call.tries then { t with pc := .writeCmd, tryCnt := t.tryCnt + 1 }
    else leave t ret
  else if ret = wfReturnRemovedFail then leave t ret
  else recvArg t 0

/-- The first value of `timeout` of `wf_mcu_cmd_get_status`. -/
def statusTimeout (t : McuThread) : Nat :=
  if t.cmd = umsgOpsHalDwFw then 1500 * t.wfHz else 750 * t.wfHz

def feedback : NicType → UInt32
  | .usb => 0x55
  | .sdio => 0xaa

/-- One turn of the loop of `wf_mcu_cmd_get_status`. -/
def pollStatus (t : McuThread) (timeout : Nat) (ans : IoAnswer) : McuThread :=
  if ans.ret ≠ 0 then
    if ans.ret = wfReturnRemovedFail then statusGot t wfReturnRemovedFail
    else statusGot t wfReturnFail
  else if ans.data = feedback t.nicType then statusGot t wfReturnOk
  else { t with pc := .poll timeout }

/-- The thread behind its next access, and that access. -/
def mcuStep (t : McuThread) (ans : IoAnswer) : McuThread × Option McuIo :=
  match t.pc with
  | .writeCmd =>
      (if ans.ret = wfReturnFail then leave t wfReturnFail else { t with pc := .writeSendLen },
        some (.write32 mailboxRegStart t.cmd))
  | .writeSendLen =>
      (if ans.ret = wfReturnFail then leave t wfReturnFail else { t with pc := .writeRecvLen },
        some (.write32 mailboxArgStart (UInt32.ofNat t.sendLen)))
  | .writeRecvLen =>
      (if ans.ret = wfReturnFail then leave t wfReturnFail else sendArg t 0,
        some (.write32 (mailboxArgStart + 4) (UInt32.ofNat t.recvLen)))
  | .writeArg k =>
      (if ans.ret = wfReturnFail then leave t wfReturnFail
        else sendArg { t with sent := t.sent + 1 } (k + 1),
        some (.write32 (mailboxArgStart + 8 + 4 * UInt32.ofNat k)
          (t.sendBuf.elim 0 fun words => words t.sent)))
  | .intFinish =>
      (if ans.ret = wfReturnFail then statusGot t wfReturnFail else { t with pc := .intTrigger },
        some (.write32 wfMailboxIntFinish 0x12345678))
  | .intTrigger =>
      (if ans.ret = wfReturnFail then statusGot t wfReturnFail
        else { t with pc := .poll (statusTimeout t) },
        some (.write8 wfMailboxRegInt 1))
  | .poll 0 => (statusGot t wfReturnFail, none)
  | .poll (timeout + 1) =>
      if ans.cannotRun then (statusGot t wfReturnRemovedFail, none)
      else (pollStatus t timeout ans, some (.read32 wfMailboxIntFinish))
  | .readArg k =>
      (recvArg { t with received := t.received ++ [ans.data] } (k + 1),
        some (.read32 (mailboxArgStart + 4 * UInt32.ofNat k)))
  | .writeTxd => (leave t ans.ret, some (.nicWriteCmd t.cmd))
  | .enter | .unlock | .done => (t, none)

/-! ## The threads -/

inductive McuAct where
  | lock
  | io (io : McuIo)
  | unlock
  deriving DecidableEq

/-- `owner` is the thread that has the lock, and the function that it is in.  `log`, for the
specification, is what the threads did to the lock and to the registers. -/
structure McuSystem where
  threads : Nat → Option McuThread
  owner : Option (Nat × McuCall)
  log : List (Nat × McuAct)

inductive McuEvent where
  | call (i : Nat) (args : McuArgs) (refused : Bool)
  | acquire (i : Nat)
  | access (i : Nat) (ans : IoAnswer)
  | release (i : Nat)

def setThread (s : McuSystem) (i : Nat) (t : McuThread) : McuSystem :=
  { s with threads := Function.update s.threads i (some t) }

/-- A thread that is in none of the functions calls one.  The mailbox is not used when the
device has been removed or the driver stopped, and `wf_io_write_cmd_by_txd` returns when
there is no `nic_write_cmd`. -/
def mcuCall (s : McuSystem) (i : Nat) (args : McuArgs) (refused : Bool) : McuSystem :=
  if (s.threads i).all fun t => t.pc = .done then
    setThread s i {
      args with
      pc := if refused then .done else .enter
      tryCnt := 0
      sent := 0
      received := []
      ret := if refused && args.call = .txd then -1 else wfReturnOk }
  else s

/-- Behind the lock. -/
def McuCall.first : McuCall → McuPc
  | .mailbox | .mailboxTry => .writeCmd
  | .txd => .writeTxd

/-- `nic_mcu_hw_access_lock` waits; what `nic_mcu_hw_access_trylock` returns is not looked
at. -/
def mcuAcquire (s : McuSystem) (i : Nat) (t : McuThread) : McuSystem :=
  let took : McuSystem := { setThread s i { t with pc := t.call.first } with
    owner := if s.owner.isNone then some (i, t.call) else s.owner
    log := s.log ++ [(i, .lock)] }
  match t.call with
  | .mailboxTry => took
  | .mailbox | .txd => if s.owner.isNone then took else s

def mcuAccess (s : McuSystem) (i : Nat) (t : McuThread) (ans : IoAnswer) : McuSystem :=
  { setThread s i (mcuStep t ans).1 with
    log := s.log ++ ((mcuStep t ans).2.toList.map fun io => (i, .io io)) }

/-- The lock is free then, whoever had it. -/
def mcuRelease (s : McuSystem) (i : Nat) (t : McuThread) : McuSystem :=
  { setThread s i { t with pc := .done } with
    owner := none
    log := s.log ++ [(i, .unlock)] }

def mcuSystemStep (s : McuSystem) : McuEvent → Option McuSystem
  | .call i args refused => some (mcuCall s i args refused)
  | .acquire i =>
      match s.threads i with
      | some t => some (if t.pc = .enter then mcuAcquire s i t else s)
      | none => some s
  | .access i ans =>
      match s.threads i with
      | some t => some (mcuAccess s i t ans)
      | none => some s
  | .release i =>
      match s.threads i with
      | some t => some (if t.pc = .unlock then mcuRelease s i t else s)
      | none => some s

def mcuStart : McuSystem := ⟨fun _ => none, none, []⟩

/-! ## What is to hold -/

/-- The thread is between its acquire and its release. -/
def Inside (s : McuSystem) (i : Nat) : Prop :=
  ∃ t, s.threads i = some t ∧ t.pc.stage = .holding

/-- One command after the other: between the acquire and the release of a thread there are only
its own accesses, and nobody else releases the lock. -/
def serialStep (holder : Option Nat) : Nat × McuAct → Option (Option Nat)
  | (i, .lock) => if holder = none then some (some i) else none
  | (i, .io _) => if holder = some i then some holder else none
  | (i, .unlock) => if holder = some i then some none else none

def Serial (log : List (Nat × McuAct)) : Prop := (run serialStep none log).isSome

structure Exclusive (s : McuSystem) : Prop where
  once : ∀ i j, Inside s i → Inside s j → i = j
  holder : ∀ i t, s.threads i = some t → t.pc = .unlock → s.owner = some (i, t.call)
  serial : Serial s.log

/-- `nic_mcu_hw_access_trylock` is called when the lock is free. -/
def TryFree (s : McuSystem) : McuEvent → Prop
  | .acquire i => ∀ t, s.threads i = some t → t.pc = .enter → t.call = .mailboxTry →
      s.owner = none
  | .call _ _ _ | .access _ _ | .release _ => True

/-! ## One step -/

def stages (s : McuSystem) (i : Nat) : Option (McuCall × Stage) :=
  (s.threads i).map fun t => (t.call, t.pc.stage)

structure Guarded (s : McuSystem) : Prop where
  owned : Owned s.owner (stages s)
  serial : run serialStep none s.log = some (s.owner.map Prod.fst)

section Steps

variable {s next : McuSystem} {i : Nat} {t : McuThread} {ans : IoAnswer} {event : McuEvent}

/-- The thread goes on behind the lock, in the same function. -/
def Goes (t after : McuThread) : Prop := after.call = t.call ∧ after.pc.stage = .holding

theorem leave_goes (t : McuThread) (ret : Int) : Goes t (leave t ret) := ⟨rfl, rfl⟩

theorem sendArg_goes (t : McuThread) (k : Nat) : Goes t (sendArg t k) := by
  simp only [Goes, sendArg, true_and]
  split_ifs <;> rfl

theorem recvArg_goes (t : McuThread) (k : Nat) : Goes t (recvArg t k) := by
  unfold recvArg
  split_ifs
  · exact ⟨rfl, rfl⟩
  · exact leave_goes t wfReturnOk

theorem statusGot_goes (t : McuThread) (ret : Int) : Goes t (statusGot t ret) := by
  unfold statusGot
  split_ifs
  · exact ⟨rfl, rfl⟩
  · exact leave_goes t ret
  · exact leave_goes t ret
  · exact recvArg_goes t 0

theorem pollStatus_goes (t : McuThread) (timeout : Nat) (ans : IoAnswer) :
    Goes t (pollStatus t timeout ans) := by
  unfold pollStatus
  split_ifs
  · exact statusGot_goes t wfReturnRemovedFail
  · exact statusGot_goes t wfReturnFail
  · exact statusGot_goes t wfReturnOk
  · exact ⟨rfl, rfl⟩

/-- An access does not lead out of the lock, and outside there is none. -/
theorem mcuStep_goes (t : McuThread) (ans : IoAnswer) :
    mcuStep t ans = (t, none) ∨ t.pc.stage = .holding ∧ Goes t (mcuStep t ans).1 := by
  unfold mcuStep
  split
  case h_1 here =>
    refine .inr ⟨by rw [here]; rfl, ?_⟩
    split_ifs
    · exact leave_goes t wfReturnFail
    · exact ⟨rfl, rfl⟩
  case h_2 here =>
    refine .inr ⟨by rw [here]; rfl, ?_⟩
    split_ifs
    · exact leave_goes t wfReturnFail
    · exact ⟨rfl, rfl⟩
  case h_3 here =>
    refine .inr ⟨by rw [here]; rfl, ?_⟩
    split_ifs
    · exact leave_goes t wfReturnFail
    · exact sendArg_goes t 0
  case h_4 k here =>
    refine .inr ⟨by rw [here]; rfl, ?_⟩
    split_ifs
    · exact leave_goes t wfReturnFail
    · exact sendArg_goes { t with sent := t.sent + 1 } (k + 1)
  case h_5 here =>
    refine .inr ⟨by rw [here]; rfl, ?_⟩
    split_ifs
    · exact statusGot_goes t wfReturnFail
    · exact ⟨rfl, rfl⟩
  case h_6 here =>
    refine .inr ⟨by rw [here]; rfl, ?_⟩
    split_ifs
    · exact statusGot_goes t wfReturnFail
    · exact ⟨rfl, rfl⟩
  case h_7 here => exact .inr ⟨by rw [here]; rfl, statusGot_goes t wfReturnFail⟩
  case h_8 timeout here =>
    refine .inr ⟨by rw [here]; rfl, ?_⟩
    split_ifs
    · exact statusGot_goes t wfReturnRemovedFail
    · exact pollStatus_goes t timeout ans
  case h_9 k here =>
    exact .inr ⟨by rw [here]; rfl,
      recvArg_goes { t with received := t.received ++ [ans.data] } (k + 1)⟩
  case h_10 here => exact .inr ⟨by rw [here]; rfl, leave_goes t ans.ret⟩
  all_goals exact .inl rfl

theorem stages_setThread (s : McuSystem) (i : Nat) (t : McuThread) :
    stages (setThread s i t) = Function.update (stages s) i (some (t.call, t.pc.stage)) := by
  unfold stages setThread
  funext j
  by_cases same : j = i
  · subst same
    simp
  · simp [Function.update_of_ne same]

theorem Guarded.inside (guarded : Guarded s) (inside : Inside s i) :
    s.owner.map Prod.fst = some i := by
  obtain ⟨t, here, holds⟩ := inside
  have owner := (guarded.owned i t.call).mpr (by simp [stages, here, holds])
  simp [owner]

theorem Guarded.exclusive (guarded : Guarded s) : Exclusive s := by
  constructor
  · intro i j first second
    have same := (guarded.inside first).symm.trans (guarded.inside second)
    simpa using same
  · intro i t here unlocks
    exact (guarded.owned i t.call).mpr (by simp [stages, here, unlocks, McuPc.stage])
  · rw [Serial, guarded.serial]
    rfl

theorem run_serial_snoc (log : List (Nat × McuAct)) (act : Nat × McuAct) :
    run serialStep none (log ++ [act]) =
      (run serialStep none log).bind fun holder => serialStep holder act := by
  rw [run_append]
  congr 1
  funext holder
  simp

theorem Guarded.call (guarded : Guarded s) (args : McuArgs) (refused : Bool) :
    Guarded (mcuCall s i args refused) := by
  by_cases outside : (s.threads i).all (fun t => t.pc = .done) = true
  · rw [mcuCall, if_pos outside]
    refine { owned := ?_, serial := guarded.serial }
    rw [stages_setThread]
    apply guarded.owned.aside
    · intro call here
      simp only [stages, Option.map_eq_some_iff, Prod.mk.injEq] at here
      obtain ⟨t, found, -, holds⟩ := here
      simp only [found, Option.all_some, decide_eq_true_eq] at outside
      simp [outside, McuPc.stage] at holds
    · intro call
      cases refused <;> simp [McuPc.stage]
  · rw [mcuCall, if_neg outside]
    exact guarded

theorem first_stage (call : McuCall) : call.first.stage = .holding := by
  cases call <;> rfl

theorem mcuAcquire_free (free : s.owner = none) :
    mcuAcquire s i t = { setThread s i { t with pc := t.call.first } with
      owner := some (i, t.call)
      log := s.log ++ [(i, .lock)] } := by
  cases call : t.call <;> simp [mcuAcquire, call, free]

theorem Guarded.acquire (guarded : Guarded s) (here : s.threads i = some t)
    (enters : t.pc = .enter) (free : s.owner = none) : Guarded (mcuAcquire s i t) := by
  rw [mcuAcquire_free free]
  constructor
  · have waits : stages s i = some (t.call, .waiting) := by
      simp [stages, here, enters, McuPc.stage]
    have owned : Owned (ownerAfter s.owner (i, t.call) (some .take))
        (Function.update (stages s) i (some (t.call, .holding))) :=
      guarded.owned.moves waits (.take free) (fun _ => rfl) (by simp)
    have stages' := stages_setThread s i { t with pc := t.call.first }
    rw [first_stage] at stages'
    exact stages' ▸ owned
  · rw [run_serial_snoc, guarded.serial, free]
    simp [serialStep]

theorem Guarded.access (guarded : Guarded s) (here : s.threads i = some t) (ans : IoAnswer) :
    Guarded (mcuAccess s i t ans) := by
  rcases mcuStep_goes t ans with stays | ⟨holds, call, stage⟩
  · have same : setThread s i t = s := by
      simp [setThread, ← here]
    simpa [mcuAccess, stays, same] using guarded
  · have before : stages s i = some (t.call, .holding) := by
      simp [stages, here, holds]
    have owner := (guarded.owned i t.call).mpr before
    constructor
    · have same := stages_setThread s i (mcuStep t ans).1
      rw [call, stage, ← before, Function.update_eq_self] at same
      exact same ▸ guarded.owned
    · cases io : (mcuStep t ans).2 with
      | none => simpa [mcuAccess, io, setThread] using guarded.serial
      | some io' =>
          simp only [mcuAccess, io, Option.toList_some, List.map_cons, List.map_nil]
          rw [run_serial_snoc, guarded.serial]
          simp [serialStep, owner, setThread]

theorem Guarded.release (guarded : Guarded s) (here : s.threads i = some t)
    (unlocks : t.pc = .unlock) : Guarded (mcuRelease s i t) := by
  have before : stages s i = some (t.call, .holding) := by
    simp [stages, here, unlocks, McuPc.stage]
  have owner := (guarded.owned i t.call).mpr before
  constructor
  · have owned : Owned (ownerAfter s.owner (i, t.call) (some .unlock))
        (Function.update (stages s) i (some (t.call, .off))) :=
      guarded.owned.moves before .unlock (by simp) (by simp)
    have stages' := stages_setThread s i { t with pc := .done }
    exact stages' ▸ owned
  · simp only [mcuRelease]
    rw [run_serial_snoc, guarded.serial]
    simp [serialStep, owner]

/-- A thread whose `nic_mcu_hw_access_trylock` fails goes on beside the owner of the lock. -/
theorem Guarded.refused (guarded : Guarded s) (here : s.threads i = some t)
    (enters : t.pc = .enter) (tries : t.call = .mailboxTry) (held : s.owner ≠ none) :
    ¬ Exclusive (mcuAcquire s i t) := by
  intro exclusive
  obtain ⟨⟨j, call⟩, owner⟩ := Option.ne_none_iff_exists'.mp held
  have holds := (guarded.owned j call).mp owner
  simp only [stages, Option.map_eq_some_iff, Prod.mk.injEq] at holds
  obtain ⟨other, found, -, stage⟩ := holds
  have apart : j ≠ i := by
    intro same
    subst same
    rw [here, Option.some.injEq] at found
    subst found
    simp [enters, McuPc.stage] at stage
  have first : Inside (mcuAcquire s i t) i :=
    ⟨{ t with pc := t.call.first }, by simp [mcuAcquire, tries, setThread], first_stage _⟩
  have second : Inside (mcuAcquire s i t) j :=
    ⟨other, by simp [mcuAcquire, tries, setThread, Function.update_of_ne apart, found], stage⟩
  exact apart (exclusive.once j i second first)

theorem Guarded.step (guarded : Guarded s) (allowed : TryFree s event) :
    ∃ next, mcuSystemStep s event = some next ∧ Guarded next := by
  cases event with
  | call i args refused => exact ⟨_, rfl, guarded.call args refused⟩
  | acquire i =>
      cases here : s.threads i with
      | none => exact ⟨s, by simp [mcuSystemStep, here], guarded⟩
      | some t =>
          refine ⟨if t.pc = .enter then mcuAcquire s i t else s,
            by simp only [mcuSystemStep, here], ?_⟩
          split_ifs with enters
          · by_cases free : s.owner = none
            · exact guarded.acquire here enters free
            · cases call : t.call with
              | mailboxTry => exact absurd (allowed t here enters call) free
              | mailbox => simpa [mcuAcquire, call, free] using guarded
              | txd => simpa [mcuAcquire, call, free] using guarded
          · exact guarded
  | access i ans =>
      cases here : s.threads i with
      | none => exact ⟨s, by simp [mcuSystemStep, here], guarded⟩
      | some t =>
          exact ⟨mcuAccess s i t ans, by simp only [mcuSystemStep, here],
            guarded.access here ans⟩
  | release i =>
      cases here : s.threads i with
      | none => exact ⟨s, by simp [mcuSystemStep, here], guarded⟩
      | some t =>
          refine ⟨if t.pc = .unlock then mcuRelease s i t else s,
            by simp only [mcuSystemStep, here], ?_⟩
          split_ifs with unlocks
          · exact guarded.release here unlocks
          · exact guarded

theorem mcuStart_guarded : Guarded mcuStart := by
  constructor
  · simp [Owned, mcuStart, stages]
  · rfl

end Steps

/-- The commands follow one another, and only the holder of the lock releases it, exactly when
every `nic_mcu_hw_access_trylock` finds the lock free. -/
theorem mailbox_exclusive_iff (events : List McuEvent) :
    Throughout mcuSystemStep Exclusive mcuStart events ↔
      EachStep mcuSystemStep TryFree mcuStart events := by
  apply throughout_iff_of_clean Guarded
  · exact fun s guarded => guarded.exclusive
  · exact fun s event guarded allowed => guarded.step allowed
  · intro s event next guarded refused steps
    cases event with
    | acquire i =>
        simp only [TryFree, Classical.not_forall] at refused
        obtain ⟨t, here, enters, tries, held⟩ := refused
        simp only [mcuSystemStep, here, enters, if_true, Option.some.injEq] at steps
        exact steps ▸ guarded.refused here enters tries held
    | call i args refuses => exact absurd trivial refused
    | access i ans => exact absurd trivial refused
    | release i => exact absurd trivial refused
  · exact mcuStart_guarded

def readVersion (call : McuCall) : McuArgs := ⟨call, 0x01, none, 0, true, 1, .usb, 100⟩

/-- The second thread fails to get the lock and writes its command all the same; then it
releases the lock of the first one. -/
def tryBeside : List McuEvent :=
  [.call 0 (readVersion .mailbox) false, .acquire 0, .access 0 ⟨0, 0, false⟩,
    .call 1 (readVersion .mailboxTry) false, .acquire 1, .access 1 ⟨-1, 0, false⟩, .release 1]

theorem mailbox_not_exclusive :
    (run mcuSystemStep mcuStart tryBeside).map McuSystem.log =
        some [(0, .lock), (0, .io (.write32 0x300 0x01)), (1, .lock),
          (1, .io (.write32 0x300 0x01)), (1, .unlock)] ∧
      ¬ Throughout mcuSystemStep Exclusive mcuStart tryBeside := by
  have log : (run mcuSystemStep mcuStart tryBeside).map McuSystem.log =
      some [(0, .lock), (0, .io (.write32 0x300 0x01)), (1, .lock),
        (1, .io (.write32 0x300 0x01)), (1, .unlock)] := by decide
  refine ⟨log, fun throughout => ?_⟩
  obtain ⟨final, exclusive, seen⟩ := throughout.observed log
  have serial := exclusive.serial
  rw [Serial, seen] at serial
  revert serial
  decide

end Smartchip.Mcu
