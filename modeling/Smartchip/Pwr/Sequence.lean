import Smartchip.Foundation.RegisterProgram

/-!
# Power sequences

`os/linux/pwr/power_rich100.c`: the tables of commands that bring the chip up and down, and
`pwr_seq_cmd_prasing`, which runs such a table against the registers.
-/

namespace Smartchip.Pwr

open Smartchip.Foundation Smartchip.Foundation.Program

/-- `PWR_CMD_READ` to `PWR_CMD_END`, and the other values of the field. -/
inductive PwrCmd where
  | read
  | write
  | polling
  | delay
  | stop
  | unknown
deriving DecidableEq, Repr

structure WlanPwrCfg where
  offset : BitVec 16
  cutMsk : BitVec 8
  fabMsk : BitVec 4
  interfaceMsk : BitVec 4
  cmd : PwrCmd
  msk : BitVec 8
  value : BitVec 8
deriving DecidableEq, Repr

/-- What the caller says about the chip and the bus. -/
structure Version where
  cut : BitVec 8
  fab : BitVec 8
  interfaceType : BitVec 8

/-- `outside` stands for a command read behind the end of the table. -/
inductive Ret where
  | ok
  | fail
  | outside
deriving DecidableEq, Repr

def pwrseqDelayUs : BitVec 8 := 0

def maxPollingCnt : Nat := 5000

def WlanPwrCfg.selected (cfg : WlanPwrCfg) (version : Version) : Bool :=
  cfg.fabMsk.setWidth 8 &&& version.fab != 0 && cfg.cutMsk &&& version.cut != 0 &&
    cfg.interfaceMsk.setWidth 8 &&& version.interfaceType != 0

/-- The wait of `PWR_CMD_DELAY` in milliseconds. -/
def WlanPwrCfg.millis (cfg : WlanPwrCfg) : Nat :=
  if cfg.value = pwrseqDelayUs then cfg.offset.toNat else cfg.offset.toNat * 1000

def writeCmd (cfg : WlanPwrCfg) (rest : Program Ret) : Program Ret :=
  .read 8 cfg.offset.toNat fun value =>
    .write 8 cfg.offset.toNat (value &&& ~~~cfg.msk ||| cfg.value &&& cfg.msk) fun taken =>
      if taken then rest else .done .fail

/-- The loop of `PWR_CMD_POLLING`.  `left` is how often `pollingCount` can still be counted on
before it is found above `maxPollingCnt`; nothing sets it back between two commands. -/
def polling (cfg : WlanPwrCfg) (rest : Nat → Program Ret) : Nat → Program Ret
  | 0 => .poll 8 cfg.offset.toNat fun value =>
      if value &&& cfg.msk = cfg.value &&& cfg.msk then .done .fail
      else .delay 10 (.done .fail)
  | left + 1 => .poll 8 cfg.offset.toNat fun value =>
      if value &&& cfg.msk = cfg.value &&& cfg.msk then rest left
      else .delay 10 (polling cfg rest left)

def pwrSeqLoop (version : Version) : List WlanPwrCfg → Nat → Program Ret
  | [], _ => .done .outside
  | cfg :: table, left =>
      if cfg.selected version then
        match cfg.cmd with
        | .write => writeCmd cfg (pwrSeqLoop version table left)
        | .polling => polling cfg (pwrSeqLoop version table) left
        | .delay => .delay cfg.millis (pwrSeqLoop version table left)
        | .stop => .done .ok
        | .read => pwrSeqLoop version table left
        | .unknown => pwrSeqLoop version table left
      else pwrSeqLoop version table left

def pwrSeqCmdPrasing (version : Version) (table : List WlanPwrCfg) : Program Ret :=
  pwrSeqLoop version table (maxPollingCnt + 1)

/-! ## The commands of a table

They are those selected for the chip, up to the end mark.
-/

def commands (version : Version) (table : List WlanPwrCfg) : List WlanPwrCfg :=
  (table.filter (·.selected version)).takeWhile (·.cmd ≠ .stop)

/-- There is an end mark for the chip. -/
def Ends (version : Version) (table : List WlanPwrCfg) : Prop :=
  ∃ cfg ∈ table, cfg.selected version ∧ cfg.cmd = .stop

instance (version : Version) (table : List WlanPwrCfg) : Decidable (Ends version table) :=
  inferInstanceAs (Decidable (∃ cfg ∈ table, _))

/-- What a write leaves of a register. -/
def WlanPwrCfg.apply (cfg : WlanPwrCfg) (image : Image) : Image := fun byte i =>
  if cfg.cmd = .write ∧ cfg.offset.toNat = byte ∧ cfg.msk.getLsbD i then cfg.value.getLsbD i
  else image byte i

/-- The commands one after the other. -/
def applyAll (cmds : List WlanPwrCfg) (image : Image) : Image :=
  cmds.foldl (fun image cfg => cfg.apply image) image

section Table

variable {version : Version} {cfg : WlanPwrCfg} {table : List WlanPwrCfg}

theorem commands_skip (refused : cfg.selected version = false) :
    commands version (cfg :: table) = commands version table := by
  simp [commands, refused]

theorem commands_stop (selected : cfg.selected version) (stop : cfg.cmd = .stop) :
    commands version (cfg :: table) = [] := by
  simp [commands, selected, stop]

theorem commands_take (selected : cfg.selected version) (more : cfg.cmd ≠ .stop) :
    commands version (cfg :: table) = cfg :: commands version table := by
  simp [commands, selected, more]

theorem ends_skip (refused : cfg.selected version = false) :
    Ends version (cfg :: table) ↔ Ends version table := by
  simp [Ends, refused]

theorem ends_take (more : cfg.cmd ≠ .stop) :
    Ends version (cfg :: table) ↔ Ends version table := by
  simp [Ends, more]

@[simp] theorem applyAll_nil (image : Image) : applyAll [] image = image := rfl

@[simp] theorem applyAll_cons (image : Image) (cmds : List WlanPwrCfg) :
    applyAll (cfg :: cmds) image = applyAll cmds (cfg.apply image) := rfl

theorem apply_other (other : cfg.cmd ≠ .write) (image : Image) : cfg.apply image = image := by
  funext byte i
  simp [WlanPwrCfg.apply, other]

end Table

/-! ## What a sequence does to the registers -/

section Effect

variable {State : Type} {dev : Device State} (regs : Registers dev) {version : Version}
  {cfg : WlanPwrCfg} {image : Image}

/-- The driver's bits when a sequence from `image` ends. -/
def Leaves (image : Image) (cmds : List WlanPwrCfg) (ends : Prop) (ret : Ret) (s : State) : Prop :=
  (ends → ret ≠ .outside) ∧ (ret = .ok → regs.Shows (applyAll cmds image) s)

theorem leaves_other (other : cfg.cmd ≠ .write) (cmds : List WlanPwrCfg) (ends : Prop) :
    Leaves regs image (cfg :: cmds) ends = Leaves regs image cmds ends := by
  funext ret s
  rw [Leaves, applyAll_cons, apply_other other]
  rfl

variable {regs}

/-- Reading back and masking changes the bits of the mask and no others. -/
theorem put_masked {value : BitVec 8} {byte i : Nat} (write : cfg.cmd = .write)
    (read : regs.Reads image cfg.offset.toNat value) (low : i < 8)
    (own : ¬ regs.hardware byte i) :
    image.put cfg.offset.toNat (value &&& ~~~cfg.msk ||| cfg.value &&& cfg.msk) byte i =
      cfg.apply image byte i := by
  by_cases here : cfg.offset.toNat = byte
  · subst here
    have first : i / 8 = 0 := Nat.div_eq_of_lt low
    have same : i % 8 = i := Nat.mod_eq_of_lt low
    have bit := read i low
    rw [first, same] at bit
    have seen := bit own
    simp only [Image.put, Nat.le_refl, Nat.sub_self, Nat.mul_zero, Nat.zero_add, low, and_self,
      if_true, WlanPwrCfg.apply, write, true_and, BitVec.getLsbD_or, BitVec.getLsbD_and,
      BitVec.getLsbD_not, decide_true, Bool.true_and]
    cases cfg.msk.getLsbD i with
    | false => simpa using seen
    | true => simp
  · have outside : ¬ (cfg.offset.toNat ≤ byte ∧ 8 * (byte - cfg.offset.toNat) + i < 8) := by
      omega
    rw [Image.put, if_neg outside]
    simp [WlanPwrCfg.apply, here]

theorem writeCmd_leaves {rest : Program Ret} {cmds : List WlanPwrCfg} {ends : Prop}
    (write : cfg.cmd = .write)
    (goes : Triple dev (regs.Shows (cfg.apply image)) rest
      (Leaves regs (cfg.apply image) cmds ends)) :
    Triple dev (regs.Shows image) (writeCmd cfg rest) (Leaves regs image (cfg :: cmds) ends) := by
  apply Registers.look_rule
  intro value read
  apply Registers.write_rule
  · refine goes.imp ?_ (fun _ _ leaves => leaves)
    intro s shows byte i low own
    rw [shows byte i low own]
    exact put_masked write read low own
  · exact triple_done fun s _ => ⟨fun _ => by decide, nofun⟩

theorem polling_leaves {rest : Nat → Program Ret} {post : Ret → State → Prop}
    (failed : ∀ s, post .fail s)
    (goes : ∀ left, Triple dev (regs.Shows image) (rest left) post) (left : Nat) :
    Triple dev (regs.Shows image) (polling cfg rest left) post := by
  have fails : Triple dev (regs.Shows image) (.done .fail) post := triple_done fun s _ => failed s
  induction left with
  | zero =>
      apply Registers.look_rule
      intro value read
      split
      · exact fails
      · exact Registers.delay_rule fails
  | succ left ih =>
      apply Registers.look_rule
      intro value read
      split
      · exact goes left
      · exact Registers.delay_rule ih

theorem pwrSeqLoop_leaves (table : List WlanPwrCfg) (image : Image) (left : Nat) :
    Triple dev (regs.Shows image) (pwrSeqLoop version table left)
      (Leaves regs image (commands version table) (Ends version table)) := by
  induction table generalizing image left with
  | nil => exact triple_done fun s _ => ⟨fun ends => by simp [Ends] at ends, nofun⟩
  | cons cfg table ih =>
      unfold pwrSeqLoop
      cases selected : cfg.selected version with
      | false =>
          rw [commands_skip selected, propext (ends_skip selected)]
          exact ih image left
      | true =>
          by_cases stop : cfg.cmd = .stop
          · rw [commands_stop selected stop, stop]
            exact triple_done fun s shows => ⟨fun _ => by decide, fun _ => shows⟩
          · rw [commands_take selected stop, propext (ends_take stop)]
            cases cmd : cfg.cmd with
            | write => exact writeCmd_leaves cmd (ih _ left)
            | stop => exact absurd cmd stop
            | polling =>
                rw [leaves_other regs (cmd ▸ by decide)]
                exact polling_leaves (fun s => ⟨fun _ => by decide, nofun⟩) (ih image) left
            | delay =>
                rw [leaves_other regs (cmd ▸ by decide)]
                exact Registers.delay_rule (ih image left)
            | read =>
                rw [leaves_other regs (cmd ▸ by decide)]
                exact ih image left
            | unknown =>
                rw [leaves_other regs (cmd ▸ by decide)]
                exact ih image left

/-- A sequence that has an end mark for the chip never runs past its table, and one that
succeeds leaves in every bit of the driver what the last selected write of that bit has put
there, or what was there before. -/
theorem pwr_seq_leaves (regs : Registers dev) (version : Version) (table : List WlanPwrCfg)
    (s : State) :
    Leaves regs (regs.bit s) (commands version table) (Ends version table)
      ((pwrSeqCmdPrasing version table).run dev s).1
      ((pwrSeqCmdPrasing version table).run dev s).2 :=
  pwrSeqLoop_leaves table (regs.bit s) _ s fun _ _ _ _ => rfl

end Effect

/-! ## How long a sequence can take -/

/-- The writes of the commands, each after a read of its own, and their waits. -/
def pwrWrites (cmds : List WlanPwrCfg) : Nat := cmds.countP (·.cmd = .write)

def pwrMillis : List WlanPwrCfg → Nat
  | [] => 0
  | cfg :: cmds => (if cfg.cmd = .delay then cfg.millis else 0) + pwrMillis cmds

/-- What the commands need when polling can go on for `polls` more reads. -/
def need (cmds : List WlanPwrCfg) (polls : Nat) : Usage :=
  ⟨pwrWrites cmds, polls, pwrWrites cmds, pwrMillis cmds + 10 * polls⟩

section Budget

variable {version : Version} {cfg : WlanPwrCfg} {cmds : List WlanPwrCfg}

theorem need_other (other : cfg.cmd ≠ .write) (wait : cfg.cmd ≠ .delay) (polls : Nat) :
    need (cfg :: cmds) polls = need cmds polls := by
  simp [need, pwrWrites, pwrMillis, other, wait]

theorem writeCmd_within {rest : Program Ret} {polls : Nat} (write : cfg.cmd = .write)
    (goes : rest.Within (need cmds polls)) :
    (writeCmd cfg rest).Within (need (cfg :: cmds) polls) := by
  have room : pwrWrites (cfg :: cmds) = pwrWrites cmds + 1 := by simp [pwrWrites, write]
  have same : pwrMillis (cfg :: cmds) = pwrMillis cmds := by simp [pwrMillis, write]
  refine ⟨?_, fun value => ⟨?_, fun taken => ?_⟩⟩
  · simp only [need, room]
    omega
  · simp only [need, room]
    omega
  · cases taken with
    | false => trivial
    | true =>
        apply goes.mono
        refine ⟨?_, ?_, ?_, ?_⟩ <;> simp only [need, room, same] <;> omega

theorem polling_within {rest : Nat → Program Ret}
    (goes : ∀ left, (rest left).Within (need cmds (left + 1))) (left : Nat) :
    (polling cfg rest left).Within (need cmds (left + 1)) := by
  induction left with
  | zero =>
      refine ⟨Nat.succ_pos _, fun value => ?_⟩
      dsimp only
      split
      · trivial
      · exact ⟨Nat.le_add_left _ _, trivial⟩
  | succ left ih =>
      refine ⟨Nat.succ_pos _, fun value => ?_⟩
      dsimp only
      split
      · apply (goes left).mono
        refine ⟨?_, ?_, ?_, ?_⟩ <;> simp only [need] <;> omega
      · refine ⟨?_, ih.mono ?_⟩
        · simp only [need]
          omega
        · refine ⟨?_, ?_, ?_, ?_⟩ <;> simp only [need] <;> omega

theorem pwrSeqLoop_within (table : List WlanPwrCfg) (left : Nat) :
    (pwrSeqLoop version table left).Within (need (commands version table) (left + 1)) := by
  induction table generalizing left with
  | nil => trivial
  | cons cfg table ih =>
      unfold pwrSeqLoop
      cases selected : cfg.selected version with
      | false =>
          rw [commands_skip selected]
          exact ih left
      | true =>
          by_cases stop : cfg.cmd = .stop
          · rw [stop]
            trivial
          · rw [commands_take selected stop]
            cases cmd : cfg.cmd with
            | write => exact writeCmd_within cmd (ih left)
            | stop => exact absurd cmd stop
            | polling =>
                rw [need_other (cmd ▸ by decide) (cmd ▸ by decide)]
                exact polling_within ih left
            | delay =>
                have wait : pwrMillis (cfg :: commands version table) =
                    cfg.millis + pwrMillis (commands version table) := by simp [pwrMillis, cmd]
                have same : pwrWrites (cfg :: commands version table) =
                    pwrWrites (commands version table) := by simp [pwrWrites, cmd]
                refine ⟨?_, (ih left).mono ?_⟩
                · simp only [need, wait]
                  omega
                · refine ⟨?_, ?_, ?_, ?_⟩ <;> simp only [need, wait, same] <;> omega
            | read =>
                rw [need_other (cmd ▸ by decide) (cmd ▸ by decide)]
                exact ih left
            | unknown =>
                rw [need_other (cmd ▸ by decide) (cmd ▸ by decide)]
                exact ih left

/-- Whatever the chip answers, all polling commands of a sequence together make at most
`maxPollingCnt + 2` reads, with a wait of 10 ms behind each; a write command makes one read and one
write, and a delay command waits once. -/
theorem pwr_seq_bounded {State : Type} (dev : Device State) (version : Version)
    (table : List WlanPwrCfg) (s : State) :
    ((pwrSeqCmdPrasing version table).usage dev s).Le
      (need (commands version table) (maxPollingCnt + 2)) :=
  (pwrSeqLoop_within table _).usage_le dev s

end Budget

end Smartchip.Pwr
