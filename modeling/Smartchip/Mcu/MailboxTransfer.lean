import Smartchip.Mcu.Mailbox

/-!
# One command through the mailbox

`wf_io_write_cmd_by_mailbox` of `nic/nic_io.c` behind the lock: which words of `send_buf` are
read, what the registers hold when the firmware acknowledges the command, and what comes into
`recv_buf`.  A command that is not acknowledged is written a second time.
-/

namespace Smartchip.Mcu

open Smartchip.Foundation

/-! ## What can be seen of a call -/

/-- `landed` are the accesses that were answered without an error, `reads` the words of
`send_buf` that were read, `acks` the registers at every acknowledgement, and `results` the
registers that were read for `recv_buf`, with what they held if that could be read. -/
structure Transfer where
  t : McuThread
  landed : List McuPc
  regs : UInt32 → UInt32
  reads : List Nat
  acks : List (UInt32 → UInt32)
  results : List (UInt32 × Option UInt32)

/-- A write that fails leaves the register alone, and a register holds what is read from it. -/
def regsAfter (regs : UInt32 → UInt32) (ans : IoAnswer) : Option McuIo → UInt32 → UInt32
  | some (.write32 addr value) =>
      if ans.ret = 0 then Function.update regs addr value else regs
  | some (.write8 addr value) =>
      if ans.ret = 0 then
        Function.update regs addr ((regs addr &&& 0xffffff00) ||| value.toUInt32)
      else regs
  | some (.read32 addr) =>
      if ans.ret = 0 then Function.update regs addr ans.data else regs
  | some (.nicWriteCmd _) | none => regs

/-- `wf_mcu_cmd_get_status` finds the answer of the firmware. -/
def Acked (t : McuThread) (ans : IoAnswer) : Prop :=
  (∃ timeout, t.pc = .poll (timeout + 1)) ∧ ans.cannotRun = false ∧ ans.ret = 0 ∧
    ans.data = feedback t.nicType

instance (t : McuThread) (ans : IoAnswer) : Decidable (Acked t ans) := by
  unfold Acked
  cases t.pc with
  | poll timeout =>
      cases timeout with
      | zero => exact isFalse (by simp)
      | succ timeout => exact decidable_of_iff (ans.cannotRun = false ∧ ans.ret = 0 ∧
          ans.data = feedback t.nicType) (by simp)
  | _ => exact isFalse (by simp)

def wordRead (t : McuThread) : List Nat :=
  match t.pc with
  | .writeArg _ => [t.sent]
  | _ => []

def wordResult (t : McuThread) (ans : IoAnswer) : List (UInt32 × Option UInt32) :=
  match t.pc with
  | .readArg k =>
      [(mailboxArgStart + 4 * UInt32.ofNat k, if ans.ret = 0 then some ans.data else none)]
  | _ => []

def transferStep (v : Transfer) (ans : IoAnswer) : Option Transfer :=
  let regs := regsAfter v.regs ans (mcuStep v.t ans).2
  some {
    t := (mcuStep v.t ans).1
    landed := if ans.ret = 0 then v.t.pc :: v.landed else v.landed
    regs
    reads := v.reads ++ wordRead v.t
    acks := if Acked v.t ans then v.acks ++ [regs] else v.acks
    results := v.results ++ wordResult v.t ans }

/-- Behind the lock, or returned at once. -/
def mailboxEnter (args : McuArgs) (refused : Bool) : McuThread :=
  { args with
    pc := if refused then .done else .writeCmd
    tryCnt := 0
    sent := 0
    received := []
    ret := wfReturnOk }

def transferStart (args : McuArgs) (refused : Bool) (regs : UInt32 → UInt32) : Transfer :=
  ⟨mailboxEnter args refused, [], regs, [], [], []⟩

/-- That is what a thread is when it has taken the lock. -/
theorem threads_mailboxEnter {s : McuSystem} {i : Nat} {args : McuArgs}
    (idle : (s.threads i).all (fun t => t.pc = .done) = true) (free : s.owner = none)
    (mailbox : args.call ≠ .txd) {t : McuThread}
    (called : (mcuCall s i args false).threads i = some t) :
    (mcuAcquire (mcuCall s i args false) i t).threads i = some (mailboxEnter args false) := by
  rw [mcuCall, if_pos idle] at called ⊢
  simp only [setThread, Function.update_self, Option.some.injEq] at called
  subst called
  rw [mcuAcquire_free (by simpa [setThread] using free)]
  cases call : args.call with
  | txd => exact absurd call mailbox
  | mailbox | mailboxTry => simp [setThread, McuCall.first, mailboxEnter]

/-! ## What is to hold -/

/-- The registers hold the command, the two lengths and the words of `send_buf`. -/
def Carries (args : McuArgs) (regs : UInt32 → UInt32) : Prop :=
  regs mailboxRegStart = args.cmd ∧ regs mailboxArgStart = UInt32.ofNat args.sendLen ∧
    regs (mailboxArgStart + 4) = UInt32.ofNat args.recvLen ∧
    ∀ words, args.sendBuf = some words → ∀ k < args.sendLen,
      regs (mailboxArgStart + 8 + 4 * UInt32.ofNat k) = words k

/-- The words that came into `recv_buf`, by the registers that they are to come from. -/
def resultWords (received : List UInt32) : List (UInt32 × Option UInt32) :=
  received.mapIdx fun k word => (mailboxArgStart + 4 * UInt32.ofNat k, some word)

structure Transferred (args : McuArgs) (v : Transfer) : Prop where
  acked : ∀ regs ∈ v.acks, Carries args regs
  inside : ∀ k ∈ v.reads, k < args.sendLen
  ok : v.t.pc = .unlock ∨ v.t.pc = .done → v.t.ret = wfReturnOk →
    v.acks ≠ [] ∧ (args.recvBuf = true → v.t.received.length = args.recvLen)
  words : v.results = resultWords v.t.received

/-! ## When it does -/

/-- The accesses that fill the registers of a command. -/
def fills (args : McuArgs) : List McuPc :=
  [.writeCmd, .writeSendLen, .writeRecvLen] ++
    if args.sendBuf.isSome then (List.range args.sendLen).map .writeArg else []

/-- The first register behind the arguments that is not for words, by its word. -/
def maxArgs : Nat := 55

/-- No word is sent on the second try; the firmware acknowledges a command only when every
register of it has been written, and none of them is `WF_MAILBOX_INT_FINISH`; and the results
can be read. -/
structure Allowed (v : Transfer) (ans : IoAnswer) : Prop where
  once : ∀ k, v.t.pc = .writeArg k → v.t.tryCnt = 0
  filled : Acked v.t ans → (v.t.sendBuf.isSome = true → v.t.sendLen ≤ maxArgs) ∧
    ∀ p ∈ fills v.t.toMcuArgs, p ∈ v.landed
  result : ∀ k, v.t.pc = .readArg k → ans.ret = 0

/-! ## The registers of a command -/

def register : McuPc → UInt32
  | .writeCmd => mailboxRegStart
  | .writeSendLen => mailboxArgStart
  | .writeRecvLen => mailboxArgStart + 4
  | .writeArg k => mailboxArgStart + 8 + 4 * UInt32.ofNat k
  | _ => wfMailboxIntFinish

def content (args : McuArgs) : McuPc → UInt32
  | .writeCmd => args.cmd
  | .writeSendLen => UInt32.ofNat args.sendLen
  | .writeRecvLen => UInt32.ofNat args.recvLen
  | .writeArg k => args.sendBuf.elim 0 fun words => words k
  | _ => 0

def slot : McuPc → Nat
  | .writeCmd => 0
  | .writeSendLen => 1
  | .writeRecvLen => 2
  | .writeArg k => k + 3
  | _ => 58

/-- The words fit in front of `WF_MAILBOX_INT_FINISH`. -/
def Short (args : McuArgs) : Prop := args.sendBuf.isSome = true → args.sendLen ≤ maxArgs

section Registers

variable {args : McuArgs} {p q : McuPc} {regs : UInt32 → UInt32}

theorem mem_fills : p ∈ fills args ↔
    p = .writeCmd ∨ p = .writeSendLen ∨ p = .writeRecvLen ∨
      ∃ k, args.sendBuf.isSome = true ∧ k < args.sendLen ∧ p = .writeArg k := by
  unfold fills
  by_cases some : args.sendBuf.isSome = true
  · simp [some, eq_comm (a := p)]
  · simp [some]

theorem carries_iff :
    Carries args regs ↔ ∀ p ∈ fills args, regs (register p) = content args p := by
  constructor
  · rintro ⟨cmd, sendLen, recvLen, words⟩ p member
    rcases mem_fills.mp member with rfl | rfl | rfl | ⟨k, some, inside, rfl⟩
    · exact cmd
    · exact sendLen
    · exact recvLen
    · obtain ⟨buf, same⟩ := Option.isSome_iff_exists.mp some
      simpa [register, content, same] using words buf same k inside
  · intro all
    refine ⟨all .writeCmd (by simp [fills]), all .writeSendLen (by simp [fills]),
      all .writeRecvLen (by simp [fills]), fun words same k inside => ?_⟩
    have word := all (.writeArg k) (mem_fills.mpr (by simp [same, inside]))
    simpa [register, content, same] using word

theorem register_eq (p : McuPc) : register p = 0x300 + 4 * UInt32.ofNat (slot p) := by
  cases p with
  | writeArg k =>
      simp only [register, slot, mailboxArgStart, UInt32.ofNat_add]
      grind
  | _ => rfl

theorem slot_lt (short : Short args) (member : p ∈ fills args) : slot p < 58 := by
  rcases mem_fills.mp member with rfl | rfl | rfl | ⟨k, some, inside, rfl⟩
  · simp [slot]
  · simp [slot]
  · simp [slot]
  · have bound : args.sendLen ≤ 55 := short some
    simp only [slot]
    omega

theorem slot_inj (first : p ∈ fills args) (second : q ∈ fills args)
    (same : slot p = slot q) : p = q := by
  rcases mem_fills.mp first with rfl | rfl | rfl | ⟨k, -, -, rfl⟩ <;>
    rcases mem_fills.mp second with rfl | rfl | rfl | ⟨j, -, -, rfl⟩ <;>
    simp_all [slot]

theorem slot_register_inj {m n : Nat} (small : m < 64) (also : n < 64)
    (same : (0x300 : UInt32) + 4 * UInt32.ofNat m = 0x300 + 4 * UInt32.ofNat n) : m = n := by
  have nat := congrArg UInt32.toNat same
  simp only [UInt32.toNat_add, UInt32.toNat_mul, UInt32.toNat_ofNat', UInt32.reduceToNat] at nat
  omega

theorem register_ne (short : Short args) (first : p ∈ fills args) (second : q ∈ fills args)
    (apart : p ≠ q) : register p ≠ register q := by
  intro same
  rw [register_eq, register_eq] at same
  have low := slot_lt short first
  have high := slot_lt short second
  exact apart (slot_inj first second (slot_register_inj (by omega) (by omega) same))

/-- The registers of `wf_mcu_cmd_get_status` are behind those of a short command. -/
theorem register_ne_behind {n : Nat} (short : Short args) (member : p ∈ fills args)
    (behind : 58 ≤ n) (small : n < 64) : register p ≠ 0x300 + 4 * UInt32.ofNat n := by
  intro same
  rw [register_eq] at same
  have low := slot_lt short member
  have equal := slot_register_inj (by omega) (by omega) same
  omega

end Registers

/-! ## Where a thread is -/

def total (t : McuThread) : Nat := if t.sendBuf.isSome then t.sendLen else 0

/-- How far `send_buf` has been moved when a try begins. -/
def base (t : McuThread) : Nat := if t.tryCnt = 0 then 0 else total t

/-- The steps of a command that the firmware has not acknowledged. -/
structure Unanswered (t : McuThread) (acks : List (UInt32 → UInt32)) (sent : Nat) : Prop where
  none : acks = []
  nothing : t.received = []
  moved : t.sent = sent

theorem Unanswered.goes {t : McuThread} {acks : List (UInt32 → UInt32)} {sent : Nat}
    (unanswered : Unanswered t acks sent) (pc : McuPc) : Unanswered { t with pc } acks sent :=
  ⟨unanswered.none, unanswered.nothing, unanswered.moved⟩

def Place (t : McuThread) (acks : List (UInt32 → UInt32)) : Prop :=
  match t.pc with
  | .writeCmd | .writeSendLen | .writeRecvLen => Unanswered t acks (base t)
  | .writeArg k => k < total t ∧ Unanswered t acks (base t + k)
  | .intFinish | .intTrigger | .poll _ => Unanswered t acks (total t)
  | .readArg k => acks ≠ [] ∧ t.received.length = k ∧ k < t.recvLen ∧ t.recvBuf = true
  | .unlock => t.ret = wfReturnOk →
      acks ≠ [] ∧ (t.recvBuf = true → t.received.length = t.recvLen)
  | .enter | .writeTxd | .done => False

section Places

variable {t : McuThread} {acks : List (UInt32 → UInt32)} {ans : IoAnswer} {k : Nat}

theorem leave_place (t : McuThread) (acks : List (UInt32 → UInt32)) {ret : Int}
    (fails : ret ≠ wfReturnOk) : Place (leave t ret) acks := by
  intro ok
  exact absurd ok fails

theorem sendArg_place (sent : Unanswered t acks (base t + k)) (le : k ≤ total t)
    (first : k = 0 ∨ t.tryCnt = 0) : Place (sendArg t k) acks := by
  have more : k < t.sendLen ∧ t.sendBuf.isSome = true ↔ k < total t := by
    unfold total
    split_ifs with some <;> simp [some]
  obtain ⟨none, nothing, moved⟩ := sent
  by_cases inside : k < total t
  · have here : sendArg t k = { t with pc := .writeArg k } := by
      simp only [sendArg, more, inside, if_true]
    rw [here]
    exact ⟨inside, none, nothing, moved⟩
  · have here : sendArg t k = { t with pc := .intFinish } := by
      simp only [sendArg, more, inside, if_false]
    rw [here]
    refine ⟨none, nothing, ?_⟩
    change t.sent = total t
    rw [moved]
    unfold base
    rcases first with rfl | first
    · split_ifs <;> omega
    · simp only [first, if_true]
      omega

theorem recvArg_place (some : acks ≠ []) (length : t.received.length = k)
    (le : k ≤ t.recvLen) : Place (recvArg t k) acks := by
  by_cases more : k < t.recvLen ∧ t.recvBuf = true
  · have here : recvArg t k = { t with pc := .readArg k } := by simp [recvArg, more]
    rw [here]
    exact ⟨some, length, more⟩
  · have here : recvArg t k = leave t wfReturnOk := by simp only [recvArg, more, if_false]
    rw [here]
    intro _
    refine ⟨some, fun buf => ?_⟩
    have stop : ¬ k < t.recvLen := fun inside => more ⟨inside, buf⟩
    change t.received.length = t.recvLen
    omega

theorem statusGot_fails (sent : Unanswered t acks (total t)) {ret : Int}
    (fails : ret = wfReturnFail ∨ ret = wfReturnRemovedFail) :
    Place (statusGot t ret) acks := by
  obtain ⟨none, nothing, moved⟩ := sent
  have notOk : ret ≠ wfReturnOk := by
    rcases fails with rfl | rfl <;> decide
  unfold statusGot
  split_ifs with failed again removed
  · exact ⟨none, nothing, moved⟩
  · exact leave_place t acks notOk
  · exact leave_place t acks notOk
  · omega

theorem statusGot_ok (nothing : t.received = []) (some : acks ≠ []) :
    Place (statusGot t wfReturnOk) acks := by
  have here : statusGot t wfReturnOk = recvArg t 0 := rfl
  rw [here]
  exact recvArg_place some (by simp [nothing]) (Nat.zero_le _)

theorem acked_iff {timeout : Nat} (here : t.pc = .poll (timeout + 1)) :
    Acked t ans ↔ ans.cannotRun = false ∧ ans.ret = 0 ∧ ans.data = feedback t.nicType := by
  simp [Acked, here]

theorem poll_place {timeout : Nat} (here : t.pc = .poll (timeout + 1))
    (sent : Unanswered t acks (total t)) (regs : UInt32 → UInt32) :
    Place (mcuStep t ans).1 (if Acked t ans then acks ++ [regs] else acks) := by
  have removed : Place (statusGot t wfReturnRemovedFail) acks := statusGot_fails sent (.inr rfl)
  have failed : Place (statusGot t wfReturnFail) acks := statusGot_fails sent (.inl rfl)
  simp only [mcuStep, here, acked_iff here]
  by_cases stops : ans.cannotRun = true
  · simpa [stops] using removed
  · by_cases error : ans.ret = 0
    · by_cases answer : ans.data = feedback t.nicType
      · have some : acks ++ [regs] ≠ [] := by simp
        simpa [stops, pollStatus, error, answer] using statusGot_ok sent.nothing some
      · have again : Place { t with pc := .poll timeout } acks := sent.goes (.poll timeout)
        simpa [stops, pollStatus, error, answer] using again
    · by_cases gone : ans.ret = wfReturnRemovedFail
      · have no : ¬ wfReturnRemovedFail = 0 := by decide
        simpa [stops, pollStatus, no, gone] using removed
      · simpa [stops, pollStatus, error, gone] using failed

theorem not_acked (other : ∀ timeout, t.pc ≠ .poll (timeout + 1)) : ¬ Acked t ans := by
  rintro ⟨⟨timeout, here⟩, -⟩
  exact other timeout here

theorem place_step (place : Place t acks) (once : ∀ k, t.pc = .writeArg k → t.tryCnt = 0)
    (regs : UInt32 → UInt32) :
    Place (mcuStep t ans).1 (if Acked t ans then acks ++ [regs] else acks) := by
  have fails : Place (leave t wfReturnFail) acks := leave_place t acks (by decide)
  unfold Place at place
  cases here : t.pc with
  | poll timeout =>
      rw [here] at place
      cases timeout with
      | succ timeout => exact poll_place here place regs
      | zero =>
          rw [if_neg (not_acked (by simp [here]))]
          simpa [mcuStep, here] using statusGot_fails place (.inl rfl)
  | writeCmd =>
      rw [here] at place
      rw [if_neg (not_acked (by simp [here]))]
      simp only [mcuStep, here]
      split_ifs
      · exact fails
      · exact place.goes .writeSendLen
  | writeSendLen =>
      rw [here] at place
      rw [if_neg (not_acked (by simp [here]))]
      simp only [mcuStep, here]
      split_ifs
      · exact fails
      · exact place.goes .writeRecvLen
  | writeRecvLen =>
      rw [here] at place
      rw [if_neg (not_acked (by simp [here]))]
      simp only [mcuStep, here]
      split_ifs
      · exact fails
      · exact sendArg_place place (Nat.zero_le _) (.inl rfl)
  | writeArg k =>
      rw [here] at place
      obtain ⟨inside, none, nothing, moved⟩ := place
      rw [if_neg (not_acked (by simp [here]))]
      simp only [mcuStep, here]
      split_ifs
      · exact fails
      · refine sendArg_place ⟨none, nothing, ?_⟩ inside (.inr (once k here))
        change t.sent + 1 = base t + (k + 1)
        omega
  | intFinish =>
      rw [here] at place
      rw [if_neg (not_acked (by simp [here]))]
      simp only [mcuStep, here]
      split_ifs
      · exact statusGot_fails place (.inl rfl)
      · exact place.goes .intTrigger
  | intTrigger =>
      rw [here] at place
      rw [if_neg (not_acked (by simp [here]))]
      simp only [mcuStep, here]
      split_ifs
      · exact statusGot_fails place (.inl rfl)
      · exact place.goes (.poll (statusTimeout t))
  | readArg k =>
      rw [here] at place
      obtain ⟨some, length, inside, buf⟩ := place
      rw [if_neg (not_acked (by simp [here]))]
      simp only [mcuStep, here]
      exact recvArg_place some (by simp [length]) inside
  | unlock =>
      rw [if_neg (not_acked (by simp [here]))]
      simpa [mcuStep, here, Place] using place
  | enter => simp [here] at place
  | writeTxd => simp [here] at place
  | done => simp [here] at place

end Places

/-! ## What one access does -/

section Accesses

variable {t : McuThread} {acks : List (UInt32 → UInt32)} {ans : IoAnswer} {k : Nat}

theorem recvArg_fields (t : McuThread) (k : Nat) :
    (recvArg t k).toMcuArgs = t.toMcuArgs ∧ (recvArg t k).received = t.received := by
  unfold recvArg
  split_ifs <;> exact ⟨rfl, rfl⟩

theorem statusGot_fields (t : McuThread) (ret : Int) :
    (statusGot t ret).toMcuArgs = t.toMcuArgs ∧ (statusGot t ret).received = t.received := by
  unfold statusGot
  split_ifs
  · exact ⟨rfl, rfl⟩
  · exact ⟨rfl, rfl⟩
  · exact ⟨rfl, rfl⟩
  · exact recvArg_fields t 0

theorem pollStatus_fields (t : McuThread) (timeout : Nat) (ans : IoAnswer) :
    (pollStatus t timeout ans).toMcuArgs = t.toMcuArgs ∧
      (pollStatus t timeout ans).received = t.received := by
  unfold pollStatus
  split_ifs
  · exact statusGot_fields t _
  · exact statusGot_fields t _
  · exact statusGot_fields t _
  · exact ⟨rfl, rfl⟩

/-- The arguments stay, and only a result that is read comes to the words received. -/
theorem mcuStep_fields (t : McuThread) (ans : IoAnswer) :
    (mcuStep t ans).1.toMcuArgs = t.toMcuArgs ∧
      (mcuStep t ans).1.received = t.received ++ match t.pc with
        | .readArg _ => [ans.data]
        | _ => [] := by
  cases here : t.pc with
  | poll timeout =>
      cases timeout with
      | zero => simpa [mcuStep, here] using statusGot_fields t wfReturnFail
      | succ timeout =>
          simp only [mcuStep, here, List.append_nil]
          split_ifs
          · exact statusGot_fields t _
          · exact pollStatus_fields t timeout ans
  | readArg k =>
      simpa [mcuStep, here] using
        recvArg_fields { t with received := t.received ++ [ans.data] } (k + 1)
  | intFinish =>
      simp only [mcuStep, here, List.append_nil]
      split_ifs
      · exact statusGot_fields t _
      · exact ⟨rfl, rfl⟩
  | intTrigger =>
      simp only [mcuStep, here, List.append_nil]
      split_ifs
      · exact statusGot_fields t _
      · exact ⟨rfl, rfl⟩
  | writeCmd | writeSendLen | writeRecvLen | writeArg =>
      simp only [mcuStep, here, List.append_nil]
      split_ifs <;> exact ⟨rfl, rfl⟩
  | writeTxd | enter | unlock | done => simp [mcuStep, here, leave]

theorem resultWords_append (received : List UInt32) (word : UInt32) :
    resultWords (received ++ [word]) = resultWords received ++
      [(mailboxArgStart + 4 * UInt32.ofNat received.length, some word)] := by
  simp [resultWords, List.mapIdx_append]

/-- A step that fills a register of the command. -/
theorem mcuStep_fills (place : Place t acks)
    (once : ∀ k, t.pc = .writeArg k → t.tryCnt = 0) (member : t.pc ∈ fills t.toMcuArgs) :
    (mcuStep t ans).2 = some (.write32 (register t.pc) (content t.toMcuArgs t.pc)) := by
  rcases mem_fills.mp member with here | here | here | ⟨k, -, -, here⟩
  · simp [mcuStep, here, register, content]
  · simp [mcuStep, here, register, content]
  · simp [mcuStep, here, register, content]
  · have sent : t.sent = k := by
      unfold Place at place
      rw [here] at place
      simpa [base, once k here] using place.2.moved
    simp [mcuStep, here, register, content, sent]

/-- Before the firmware answers, the other steps stay away from those registers. -/
theorem regsAfter_others (place : Place t acks) (none : acks = [])
    (other : t.pc ∉ fills t.toMcuArgs) (regs : UInt32 → UInt32) {a : UInt32}
    (finish : a ≠ wfMailboxIntFinish) (int : a ≠ wfMailboxRegInt) :
    regsAfter regs ans (mcuStep t ans).2 a = regs a := by
  unfold Place at place
  cases here : t.pc with
  | poll timeout =>
      cases timeout with
      | zero => simp [mcuStep, here, regsAfter]
      | succ timeout =>
          simp only [mcuStep, here]
          split_ifs
          · rfl
          · simp only [regsAfter]
            split_ifs
            · exact Function.update_of_ne finish _ _
            · rfl
  | intFinish =>
      simp only [mcuStep, here, regsAfter]
      split_ifs
      · exact Function.update_of_ne finish _ _
      · rfl
  | intTrigger =>
      simp only [mcuStep, here, regsAfter]
      split_ifs
      · exact Function.update_of_ne int _ _
      · rfl
  | writeCmd => exact absurd (mem_fills.mpr (by simp [here])) other
  | writeSendLen => exact absurd (mem_fills.mpr (by simp [here])) other
  | writeRecvLen => exact absurd (mem_fills.mpr (by simp [here])) other
  | writeArg k =>
      rw [here] at place
      have inside := place.1
      unfold total at inside
      split_ifs at inside with some
      · exact absurd (mem_fills.mpr (by simp [here, some, inside])) other
      · omega
  | readArg k =>
      rw [here] at place
      exact absurd none place.1
  | unlock => simp [mcuStep, here, regsAfter]
  | enter => simp [here] at place
  | writeTxd => simp [here] at place
  | done => simp [here] at place

end Accesses

/-! ## The invariant -/

structure Clean (args : McuArgs) (start : UInt32 → UInt32) (v : Transfer) : Prop where
  same : v.t.toMcuArgs = args
  place : Place v.t v.acks
  regs : v.acks = [] → Short args → ∀ p ∈ fills args,
    v.regs (register p) = if p ∈ v.landed then content args p else start (register p)
  acked : ∀ regs ∈ v.acks, Carries args regs
  inside : ∀ k ∈ v.reads, k < args.sendLen
  words : v.results = resultWords v.t.received

section Invariant

variable {args : McuArgs} {start : UInt32 → UInt32} {v next : Transfer} {ans : IoAnswer}

theorem Clean.transferred (clean : Clean args start v) : Transferred args v where
  acked := clean.acked
  inside := clean.inside
  words := clean.words
  ok := by
    intro ends ok
    have place := clean.place
    unfold Place at place
    rcases ends with here | here
    · rw [here] at place
      rw [← clean.same]
      exact place ok
    · simp [here] at place

theorem transferStart_clean (args : McuArgs) (start : UInt32 → UInt32) :
    Clean args start (transferStart args false start) where
  same := rfl
  place := ⟨rfl, rfl, by simp [transferStart, mailboxEnter, base]⟩
  regs := by simp [transferStart]
  acked := by simp [transferStart]
  inside := by simp [transferStart]
  words := rfl

/-- What a register of the command holds behind a step without an answer of the firmware. -/
theorem Clean.regs_step (clean : Clean args start v)
    (once : ∀ k, v.t.pc = .writeArg k → v.t.tryCnt = 0) (none : v.acks = [])
    (short : Short args) {p : McuPc} (member : p ∈ fills args) :
    regsAfter v.regs ans (mcuStep v.t ans).2 (register p) =
      if p ∈ (if ans.ret = 0 then v.t.pc :: v.landed else v.landed) then content args p
      else start (register p) := by
  have before := clean.regs none short p member
  by_cases filling : v.t.pc ∈ fills args
  · have io : (mcuStep v.t ans).2 =
        some (.write32 (register v.t.pc) (content v.t.toMcuArgs v.t.pc)) :=
      mcuStep_fills clean.place once (clean.same ▸ filling)
    rw [io, clean.same]
    by_cases landed : ans.ret = 0
    · by_cases here : p = v.t.pc
      · subst here
        simp [regsAfter, landed]
      · have apart := register_ne short member filling here
        simp [regsAfter, landed, Function.update_of_ne apart, before, here]
    · simp [regsAfter, landed, before]
  · have finish := register_ne_behind short member (Nat.le_refl 58) (by omega)
    have int := @register_ne_behind args p 60 short member (by omega) (by omega)
    have here : p ≠ v.t.pc := fun same => filling (same ▸ member)
    rw [regsAfter_others clean.place none (clean.same ▸ filling) v.regs finish int, before]
    by_cases landed : ans.ret = 0
    · simp [landed, here]
    · simp [landed]

theorem Acked.none (clean : Clean args start v) (acked : Acked v.t ans) : v.acks = [] := by
  obtain ⟨⟨timeout, here⟩, -⟩ := acked
  have place := clean.place
  unfold Place at place
  rw [here] at place
  exact place.none

/-- The registers are not changed by the answer. -/
theorem Acked.regs (acked : Acked v.t ans) {a : UInt32} (finish : a ≠ wfMailboxIntFinish) :
    regsAfter v.regs ans (mcuStep v.t ans).2 a = v.regs a := by
  obtain ⟨⟨timeout, here⟩, runs, ok, -⟩ := acked
  simp [mcuStep, here, runs, ok, regsAfter, Function.update_of_ne finish]

theorem wordRead_inside (place : Place v.t v.acks)
    (once : ∀ k, v.t.pc = .writeArg k → v.t.tryCnt = 0) :
    ∀ k ∈ wordRead v.t, k < v.t.sendLen := by
  intro k member
  unfold wordRead at member
  unfold Place at place
  cases here : v.t.pc with
  | writeArg j =>
      simp only [here, List.mem_singleton] at member place
      obtain ⟨inside, sent⟩ := place
      have moved := sent.moved
      simp only [base, once j here, if_true, Nat.zero_add] at moved
      unfold total at inside
      split_ifs at inside <;> omega
  | _ => simp [here] at member

theorem wordResult_received (place : Place v.t v.acks)
    (result : ∀ k, v.t.pc = .readArg k → ans.ret = 0) :
    resultWords v.t.received ++ wordResult v.t ans =
      resultWords (mcuStep v.t ans).1.received := by
  rw [(mcuStep_fields v.t ans).2]
  unfold wordResult
  unfold Place at place
  cases here : v.t.pc with
  | readArg k =>
      rw [here] at place
      simp [resultWords_append, place.2.1, result k here]
  | _ => simp

theorem Clean.step (clean : Clean args start v) (allowed : Allowed v ans) :
    ∃ next, transferStep v ans = some next ∧ Clean args start next := by
  have fields := mcuStep_fields v.t ans
  refine ⟨_, rfl, ?_⟩
  constructor
  · exact fields.1.trans clean.same
  · exact place_step clean.place allowed.once _
  · intro none short p member
    have quiet : v.acks = [] := by
      by_cases acked : Acked v.t ans
      · simp [acked] at none
      · simpa [acked] using none
    exact clean.regs_step allowed.once quiet short member
  · intro regs member
    by_cases acked : Acked v.t ans
    · simp only [acked, if_true, List.mem_append, List.mem_singleton] at member
      rcases member with earlier | rfl
      · exact clean.acked regs earlier
      · obtain ⟨short, filled⟩ := allowed.filled acked
        rw [clean.same] at filled
        have short : Short args := by
          rw [← clean.same]
          exact short
        rw [carries_iff]
        intro p member
        have finish := register_ne_behind short member (Nat.le_refl 58) (by omega)
        rw [acked.regs finish, clean.regs (acked.none clean) short p member,
          if_pos (filled p member)]
    · simp only [acked, if_false] at member
      exact clean.acked regs member
  · intro k member
    rw [List.mem_append] at member
    rcases member with earlier | now
    · exact clean.inside k earlier
    · rw [← clean.same]
      exact wordRead_inside clean.place allowed.once k now
  · change v.results ++ wordResult v.t ans = _
    rw [clean.words]
    exact wordResult_received clean.place allowed.result

end Invariant

/-! ## The worst contents -/

/-- The arguments with other words behind `send_buf`. -/
def McuArgs.holding (args : McuArgs) (words : Nat → UInt32) : McuArgs :=
  { args with sendBuf := args.sendBuf.map fun _ => words }

/-- No register holds what the command is to put there, when the words are zero. -/
def adverse (args : McuArgs) (a : UInt32) : UInt32 :=
  if a = mailboxRegStart then args.cmd + 1
  else if a = mailboxArgStart then UInt32.ofNat args.sendLen + 1
  else if a = mailboxArgStart + 4 then UInt32.ofNat args.recvLen + 1
  else 1

section Worst

variable {args : McuArgs} {v next : Transfer} {ans : IoAnswer}

theorem add_one_ne (x : UInt32) : x + 1 ≠ x := by
  intro same
  have none : (1 : UInt32) = 0 := by grind
  exact absurd none (by decide)

theorem adverse_ne (short : Short (args.holding fun _ => 0)) {p : McuPc}
    (member : p ∈ fills (args.holding fun _ => 0)) :
    adverse args (register p) ≠ content (args.holding fun _ => 0) p := by
  have others : ∀ {q : McuPc}, q ∈ fills (args.holding fun _ => 0) → p ≠ q →
      register p ≠ register q := fun second apart => register_ne short member second apart
  rcases mem_fills.mp member with rfl | rfl | rfl | ⟨k, some, inside, rfl⟩
  · exact add_one_ne args.cmd
  · exact add_one_ne (UInt32.ofNat args.sendLen)
  · exact add_one_ne (UInt32.ofNat args.recvLen)
  · have cmd := @others .writeCmd (by simp [fills]) (by simp)
    have sendLen := @others .writeSendLen (by simp [fills]) (by simp)
    have recvLen := @others .writeRecvLen (by simp [fills]) (by simp)
    simp only [register] at cmd sendLen recvLen
    have one : adverse args (register (.writeArg k)) = 1 := by
      simp only [adverse, register, cmd, sendLen, recvLen, if_false]
    rw [one]
    cases buf : args.sendBuf <;> simp [content, McuArgs.holding, buf]

theorem feedback_ne (nicType : NicType) : feedback nicType ≠ 0 := by
  cases nicType <;> decide

theorem isSome_resultWords {received : List UInt32} {result : UInt32 × Option UInt32}
    (member : result ∈ resultWords received) : result.2.isSome = true := by
  obtain ⟨k, inside, rfl⟩ := List.mem_mapIdx.mp member
  rfl

/-- A word of the second try lies behind `send_buf`. -/
theorem Clean.once (clean : Clean args (adverse args) v)
    (inside : ∀ k ∈ v.reads ++ wordRead v.t, k < args.sendLen) {k : Nat}
    (here : v.t.pc = .writeArg k) : v.t.tryCnt = 0 := by
  by_contra again
  have place := clean.place
  unfold Place at place
  rw [here] at place
  obtain ⟨more, sent⟩ := place
  have reads : v.t.sent < v.t.sendLen := by
    rw [clean.same]
    exact inside v.t.sent (by simp [wordRead, here])
  have moved := sent.moved
  simp only [base, again, if_false] at moved
  unfold total at more moved
  split_ifs at more moved <;> omega

theorem Acked.short (acked : Acked v.t ans)
    (carries : Carries (args.holding fun _ => 0)
      (regsAfter v.regs ans (mcuStep v.t ans).2)) :
    Short (args.holding fun _ => 0) := by
  intro some
  by_contra long
  obtain ⟨-, -, -, words⟩ := carries
  obtain ⟨buf, same⟩ := Option.isSome_iff_exists.mp some
  have zero : buf = fun _ => 0 := by
    simp only [McuArgs.holding, Option.map_eq_some_iff] at same
    obtain ⟨-, -, rfl⟩ := same
    rfl
  have last := words buf same maxArgs (Nat.not_le.mp long)
  obtain ⟨⟨timeout, here⟩, runs, ok, data⟩ := acked
  -- the answer of the firmware has taken the place of the word
  have finish : mailboxArgStart + 8 + 4 * UInt32.ofNat maxArgs = wfMailboxIntFinish := by
    decide
  simp only [finish, mcuStep, here, runs, regsAfter, ok, zero, if_true,
    Bool.false_eq_true, if_false, Function.update_self, data] at last
  exact feedback_ne _ last

theorem Clean.landed (clean : Clean (args.holding fun _ => 0) (adverse args) v)
    (acked : Acked v.t ans) (short : Short (args.holding fun _ => 0))
    (carries : Carries (args.holding fun _ => 0)
      (regsAfter v.regs ans (mcuStep v.t ans).2)) :
    ∀ p ∈ fills (args.holding fun _ => 0), p ∈ v.landed := by
  intro p member
  by_contra missing
  have finish := register_ne_behind short member (Nat.le_refl 58) (by omega)
  have holds := carries_iff.mp carries p member
  rw [acked.regs finish, clean.regs (acked.none clean) short p member, if_neg missing] at holds
  exact adverse_ne short member holds

/-- A step that leaves everything in order is one of the good ones. -/
theorem Clean.allowed (clean : Clean (args.holding fun _ => 0) (adverse args) v)
    (steps : transferStep v ans = some next)
    (good : Transferred (args.holding fun _ => 0) next) : Allowed v ans := by
  simp only [transferStep, Option.some.injEq] at steps
  subst steps
  refine ⟨fun k here => clean.once good.inside here, fun acked => ?_, fun k here => ?_⟩
  · have carries := good.acked (regsAfter v.regs ans (mcuStep v.t ans).2) (by simp [acked])
    have short := acked.short carries
    have landed := clean.landed acked short carries
    rw [← clean.same] at short landed
    exact ⟨short, landed⟩
  · by_contra error
    have member : (mailboxArgStart + 4 * UInt32.ofNat k, none) ∈
        v.results ++ wordResult v.t ans := by
      simp [wordResult, here, error]
    have words : v.results ++ wordResult v.t ans = resultWords (mcuStep v.t ans).1.received :=
      good.words
    rw [words] at member
    simpa using isSome_resultWords member

end Worst

/-! ## The steps do not depend on the words -/

section Words

variable {t : McuThread} {ans : IoAnswer} {buf : Option (Nat → UInt32)} {v w : Transfer}

def McuThread.withBuf (t : McuThread) (buf : Option (Nat → UInt32)) : McuThread :=
  { t with sendBuf := buf }

theorem recvArg_withBuf (t : McuThread) (k : Nat) :
    recvArg (t.withBuf buf) k = (recvArg t k).withBuf buf := by
  by_cases more : k < t.recvLen ∧ t.recvBuf = true
  · have same : k < (t.withBuf buf).recvLen ∧ (t.withBuf buf).recvBuf = true := more
    rw [recvArg, recvArg, if_pos more, if_pos same]
    rfl
  · have same : ¬ (k < (t.withBuf buf).recvLen ∧ (t.withBuf buf).recvBuf = true) := more
    rw [recvArg, recvArg, if_neg more, if_neg same]
    rfl

theorem statusGot_withBuf (t : McuThread) (ret : Int) :
    statusGot (t.withBuf buf) ret = (statusGot t ret).withBuf buf := by
  unfold statusGot
  by_cases failed : ret = wfReturnFail
  · rw [if_pos failed, if_pos failed]
    by_cases again : t.tryCnt + 1 < t.call.tries
    · have same : (t.withBuf buf).tryCnt + 1 < (t.withBuf buf).call.tries := again
      rw [if_pos again, if_pos same]
      rfl
    · have same : ¬ (t.withBuf buf).tryCnt + 1 < (t.withBuf buf).call.tries := again
      rw [if_neg again, if_neg same]
      rfl
  · rw [if_neg failed, if_neg failed]
    by_cases removed : ret = wfReturnRemovedFail
    · rw [if_pos removed, if_pos removed]
      rfl
    · rw [if_neg removed, if_neg removed]
      exact recvArg_withBuf t 0

theorem pollStatus_withBuf (t : McuThread) (timeout : Nat) :
    pollStatus (t.withBuf buf) timeout ans = (pollStatus t timeout ans).withBuf buf := by
  have nicType : (t.withBuf buf).nicType = t.nicType := rfl
  simp only [pollStatus, nicType, statusGot_withBuf, apply_ite (McuThread.withBuf · buf)]
  rfl

theorem sendArg_withBuf (same : buf.isSome = t.sendBuf.isSome) (k : Nat) :
    sendArg (t.withBuf buf) k = (sendArg t k).withBuf buf := by
  simp only [sendArg, McuThread.withBuf, same]

theorem mcuStep_withBuf (same : buf.isSome = t.sendBuf.isSome) :
    (mcuStep (t.withBuf buf) ans).1 = (mcuStep t ans).1.withBuf buf := by
  have pc : (t.withBuf buf).pc = t.pc := rfl
  cases here : t.pc with
  | poll timeout =>
      cases timeout with
      | zero => simpa [mcuStep, pc, here] using statusGot_withBuf t wfReturnFail
      | succ timeout =>
          simp only [mcuStep, pc, here, statusGot_withBuf, pollStatus_withBuf]
          split_ifs <;> rfl
  | readArg k =>
      simp only [mcuStep, pc, here]
      exact recvArg_withBuf { t with received := t.received ++ [ans.data] } (k + 1)
  | intFinish =>
      simp only [mcuStep, pc, here]
      split_ifs
      · exact statusGot_withBuf t _
      · rfl
  | intTrigger =>
      simp only [mcuStep, pc, here]
      split_ifs
      · exact statusGot_withBuf t _
      · rfl
  | writeRecvLen =>
      simp only [mcuStep, pc, here]
      split_ifs
      · rfl
      · exact sendArg_withBuf same 0
  | writeArg k =>
      simp only [mcuStep, pc, here]
      split_ifs
      · rfl
      · exact @sendArg_withBuf { t with sent := t.sent + 1 } buf same (k + 1)
  | writeCmd | writeSendLen =>
      simp only [mcuStep, pc, here]
      split_ifs <;> rfl
  | writeTxd | enter | unlock | done => simp [mcuStep, here, leave, McuThread.withBuf]

/-- Two calls that differ in the words and in the registers. -/
structure Alike (v w : Transfer) : Prop where
  thread : w.t = v.t.withBuf w.t.sendBuf
  null : w.t.sendBuf.isSome = v.t.sendBuf.isSome
  landed : w.landed = v.landed

theorem Alike.symm (alike : Alike v w) : Alike w v where
  thread := by
    rw [alike.thread]
    rfl
  null := alike.null.symm
  landed := alike.landed.symm

theorem Alike.step {next : Transfer} (alike : Alike v w)
    (steps : transferStep w ans = some next) :
    ∃ follows, transferStep v ans = some follows ∧ Alike follows next := by
  simp only [transferStep, Option.some.injEq] at steps
  subst steps
  have args := congrArg McuArgs.sendBuf (mcuStep_fields w.t ans).1
  have others := congrArg McuArgs.sendBuf (mcuStep_fields v.t ans).1
  have thread : (mcuStep w.t ans).1 = (mcuStep v.t ans).1.withBuf w.t.sendBuf := by
    conv_lhs => rw [alike.thread]
    exact mcuStep_withBuf alike.null
  have pc : w.t.pc = v.t.pc := by
    rw [alike.thread]
    rfl
  refine ⟨_, rfl, ?_, ?_, ?_⟩
  · simpa [args] using thread
  · simpa [args, others] using alike.null
  · simp [alike.landed, pc]

theorem Alike.allowed (alike : Alike v w) (allowed : Allowed v ans) : Allowed w ans := by
  have pc : w.t.pc = v.t.pc := by
    rw [alike.thread]
    rfl
  have tryCnt : w.t.tryCnt = v.t.tryCnt := by
    rw [alike.thread]
    rfl
  have sendLen : w.t.sendLen = v.t.sendLen := by
    rw [alike.thread]
    rfl
  have nicType : w.t.nicType = v.t.nicType := by
    rw [alike.thread]
    rfl
  have same : fills w.t.toMcuArgs = fills v.t.toMcuArgs := by
    unfold fills
    rw [alike.null, sendLen]
  refine ⟨?_, ?_, ?_⟩
  · rw [pc, tryCnt]
    exact allowed.once
  · intro acked
    have also : Acked v.t ans := by
      unfold Acked at acked ⊢
      rw [pc, nicType] at acked
      exact acked
    rw [alike.null, sendLen, same, alike.landed]
    exact allowed.filled also
  · rw [pc]
    exact allowed.result

end Words

/-- Whatever `send_buf` and the registers hold: the command is transferred exactly when it is
not refused and every step is one of the good ones. -/
theorem mailbox_transfer_iff (args : McuArgs) (refused : Bool) (answers : List IoAnswer) :
    (∀ words regs, Throughout transferStep (Transferred (args.holding words))
      (transferStart (args.holding words) refused regs) answers) ↔
    refused = false ∧
      EachStep transferStep Allowed (transferStart args refused fun _ => 0) answers := by
  have alike : ∀ words regs, Alike (transferStart args refused fun _ => 0)
      (transferStart (args.holding words) refused regs) := by
    intro words regs
    exact ⟨rfl, by simp [transferStart, mailboxEnter, McuArgs.holding], rfl⟩
  constructor
  · intro all
    have worst := all (fun _ => 0) (adverse args)
    have runs : refused = false := by
      by_contra stops
      rw [Bool.not_eq_false] at stops
      subst stops
      have good := worst.start
      exact (good.ok (.inr rfl) rfl).1 rfl
    subst runs
    have each := (throughout_iff_of_clean (Clean (args.holding fun _ => 0) (adverse args))
      (fun v clean => clean.transferred)
      (fun v ans clean allowed => clean.step allowed)
      (fun v ans next clean refused steps good => refused (clean.allowed steps good))
      (transferStart_clean _ _)).mp worst
    exact ⟨rfl, each.of_alike (fun _ _ _ _ alike => alike.step)
      (fun _ _ _ alike => alike.allowed) (alike _ _).symm⟩
  · rintro ⟨rfl, each⟩ words regs
    have moved := each.of_alike (fun _ _ _ _ alike => alike.step)
      (fun _ _ _ alike => alike.allowed) (alike words regs)
    apply moved.throughout (Clean (args.holding words) regs)
    · exact fun v clean => clean.transferred
    · exact fun v ans clean allowed => clean.step allowed
    · exact transferStart_clean _ _

/-- One word is sent, and the first try fails behind it. -/
def retryArgs : McuArgs :=
  ⟨.mailbox, 0x01, some fun k => 7 + UInt32.ofNat k, 1, false, 0, .usb, 100⟩

def retryAnswers : List IoAnswer :=
  [0, 0, 0, 0, -1, 0, 0, 0, 0, 0, 0, 0].map fun ret => ⟨ret, 0x55, false⟩

/-- The second try sends the word behind `send_buf`, and the firmware acknowledges that. -/
theorem mailbox_retry_sends_next :
    (run transferStep (transferStart retryArgs false fun _ => 0) retryAnswers).map
        (fun v => (v.t.ret, v.reads, v.acks.map fun regs => regs 0x30c)) =
      some (0, [0, 1], [8]) ∧
    ¬ Throughout transferStep (Transferred retryArgs)
        (transferStart retryArgs false fun _ => 0) retryAnswers := by
  have ends : (run transferStep (transferStart retryArgs false fun _ => 0) retryAnswers).map
      (fun v => (v.t.ret, v.reads, v.acks.map fun regs => regs 0x30c)) =
    some (0, [0, 1], [8]) := by decide +kernel
  refine ⟨ends, fun throughout => ?_⟩
  obtain ⟨final, good, seen⟩ := throughout.observed ends
  simp only [Prod.mk.injEq] at seen
  have inside := good.inside 1 (by simp [seen.2.1])
  exact absurd inside (by decide)

end Smartchip.Mcu
