import Smartchip.Pwr.Sequence

/-!
# Powering the chip up

`power_on` of `os/linux/pwr/power_rich100.c` with the tables it runs.
-/

namespace Smartchip.Pwr

open Smartchip.Foundation Smartchip.Foundation.Program

/-- `node->hif_type`. -/
inductive HifType where
  | usb
  | sdio
  | unknown
deriving DecidableEq, Repr

/-! ## The tables -/

def pwrIntfSdioMsk : BitVec 4 := 1#4

def pwrIntfUsbMsk : BitVec 4 := 2#4

def pwrIntfAllMsk : BitVec 4 := 15#4

/-- A row with `PWR_CUT_ALL_MSK` and `PWR_FAB_ALL_MSK`. -/
def row (offset : BitVec 16) (interfaceMsk : BitVec 4) (cmd : PwrCmd) (msk value : BitVec 8) :
    WlanPwrCfg := ⟨offset, 0xff, 15, interfaceMsk, cmd, msk, value⟩

def wlanUsbCardEnableFlow : List WlanPwrCfg :=
  [row 0x0086 pwrIntfSdioMsk .write 0x01 0,
   row 0x0086 pwrIntfSdioMsk .polling 0x02 0x02,
   row 0x0005 pwrIntfAllMsk .write 0x18 0,
   row 0x00c4 pwrIntfUsbMsk .write 0x10 0,
   row 0x0005 pwrIntfAllMsk .write 0x04 0,
   row 0x0006 pwrIntfAllMsk .polling 0x02 0x02,
   row 0x0005 pwrIntfAllMsk .write 0x80 0,
   row 0x0005 pwrIntfAllMsk .write 0x08 0,
   row 0x0005 pwrIntfAllMsk .write 0x01 0x01,
   row 0x0005 pwrIntfAllMsk .polling 0x01 0,
   row 0x0027 pwrIntfAllMsk .write 0xff 0x35,
   row 0xffff pwrIntfAllMsk .stop 0 0]

def wlanSdioCardEnableFlow : List WlanPwrCfg :=
  [row 0x903a pwrIntfSdioMsk .write 0x01 0,
   row 0x903a pwrIntfSdioMsk .polling 0x02 0x02,
   row 0x0005 pwrIntfAllMsk .write 0x18 0,
   row 0x00c4 pwrIntfUsbMsk .write 0x10 0,
   row 0x0005 pwrIntfAllMsk .write 0x04 0,
   row 0x0006 pwrIntfAllMsk .polling 0x02 0x02,
   row 0x0005 pwrIntfAllMsk .write 0x80 0,
   row 0x0005 pwrIntfAllMsk .write 0x08 0,
   row 0x0005 pwrIntfAllMsk .write 0x01 0x01,
   row 0x0005 pwrIntfAllMsk .polling 0x01 0,
   row 0x0027 pwrIntfAllMsk .write 0xff 0x35,
   row 0xffff pwrIntfAllMsk .stop 0 0]

def usbVersion : Version := ⟨0xff, 0x0f, 0x02⟩

def sdioVersion : Version := ⟨0xff, 0x0f, 0x01⟩

/-! ## The steps -/

/-- A write of which a failure ends the whole function. -/
def writeCheck (bits addr : Nat) (value : BitVec bits) (rest : Program Ret) : Program Ret :=
  .write bits addr value fun taken => if taken then rest else .done .fail

def runFlow (version : Version) (table : List WlanPwrCfg) (rest : Program Ret) : Program Ret :=
  (pwrSeqCmdPrasing version table).bind fun ret =>
    match ret with
    | .ok => rest
    | ret => .done ret

def regCr : Nat := 0x100

/-- `HCI_TXDMA_EN` to `SCHEDULE_EN`, `ENSEC` and `CALTMR_EN`. -/
def crEnable : BitVec 16 := 0x063f

def enableCr (rest : Program Ret) : Program Ret :=
  writeCheck 16 regCr 0 <| .read 16 regCr fun value16 =>
    writeCheck 16 regCr (value16 ||| crEnable) rest

/-- The wait goes on also when the word never comes. -/
def waitWord (word : BitVec 32) (rest : Program Ret) : Nat → Program Ret
  | 0 => rest
  | index + 1 => .read 32 regCr fun value32 =>
      if value32 = word then rest else waitWord word rest index

def checkCr (rest : Program Ret) : Program Ret :=
  .read 8 regCr fun byte0 => .read 8 (regCr + 1) fun byte1 =>
    .read 8 (regCr + 2) fun byte2 => .read 8 (regCr + 3) fun byte3 =>
      if byte0 = 0xea ∨ byte1 = 0xea ∨ byte2 = 0xea ∨ byte3 = 0xea then .done .fail
      else .read 32 regCr fun _ => waitWord (byte3 ++ byte2 ++ byte1 ++ byte0) rest 100

/-- The loop of the power check over the attempts left. -/
def powerCheck (rest : Program Ret) : Nat → Program Ret
  | 0 => .done .fail
  | index + 1 => writeCheck 32 0x1b8 0x12345678#32 <| .read 32 0x1b8 fun value32 =>
      if value32 = 0x12345678 then rest else powerCheck rest index

/-- What both buses do at the end. -/
def startClocks : Program Ret :=
  powerCheck (.read 32 0x24 fun _ => writeCheck 32 0x24 0x350016ef <| .read 32 0x24 fun _ =>
    writeCheck 32 0x94 0x6 (.done .ok)) 100

def powerOnUsb : Program Ret :=
  writeCheck 8 0xac 0x06 <| writeCheck 8 0x98 0xff <| writeCheck 8 0x99 0xff <|
    writeCheck 8 0x9a 0x01 <| runFlow usbVersion wlanUsbCardEnableFlow <| enableCr startClocks

/-- Whether the write of `0xf8` is taken is not looked at. -/
def powerOnSdio : Program Ret :=
  writeCheck 8 0xac 0x02 <| .read 8 0xf8 fun value8 => .write 8 0xf8 (value8 &&& 0xfe) fun _ =>
    writeCheck 8 0x98 0xff <| writeCheck 8 0x99 0xff <| writeCheck 8 0x9a 0x00 <|
      .read 8 0xac fun value8 =>
        if value8 ≠ 0x02 then .done .fail
        else writeCheck 8 0x1c 0x00 <| runFlow sdioVersion wlanSdioCardEnableFlow <|
          enableCr (checkCr startClocks)

def powerOn : HifType → Program Ret
  | .usb => powerOnUsb
  | .sdio => powerOnSdio
  | .unknown => .done .fail

/-! ## The registers of a chip that is up -/

def clocksImage (image : Image) : Image :=
  ((image.put 0x1b8 0x12345678#32).put 0x24 0x350016ef#32).put 0x94 0x6#32

def usbImage (image : Image) : Image :=
  clocksImage ((applyAll (commands usbVersion wlanUsbCardEnableFlow)
    ((((image.put 0xac 0x06#8).put 0x98 0xff#8).put 0x99 0xff#8).put 0x9a 0x01#8)).put
      regCr crEnable)

def sdioImage (image : Image) : Image :=
  clocksImage ((applyAll (commands sdioVersion wlanSdioCardEnableFlow)
    (((((image.put 0xac 0x02#8).put 0x98 0xff#8).put 0x99 0xff#8).put 0x9a 0x00#8).put
      0x1c 0x00#8)).put regCr crEnable)

def upImage : HifType → Image → Image
  | .usb => usbImage
  | .sdio => sdioImage
  | .unknown => id

/-- The register of which nothing is promised. -/
def Free (hif : HifType) (byte : Nat) : Prop := hif = .sdio ∧ byte = 0xf8

/-- After success the driver's bits are those of a chip that is up, and no others differ from
those before. -/
def Up {State : Type} {dev : Device State} (regs : Registers dev) (hif : HifType) (image : Image)
    (ret : Ret) (s : State) : Prop :=
  ret ≠ .outside ∧ (ret = .ok → ∀ byte i, i < 8 → ¬ regs.hardware byte i → ¬ Free hif byte →
    regs.bit s byte i = upImage hif image byte i)

example : ((pwrSeqCmdPrasing usbVersion (wlanUsbCardEnableFlow.drop 9)).run plain
    fun _ _ => false).1 = .ok := by decide +kernel

/-! ## What the steps do -/

section Steps

variable {State : Type} {dev : Device State} {regs : Registers dev} {image : Image}
  {post : Ret → State → Prop} {rest : Program Ret}

theorem writeCheck_rule (failed : ∀ s, post .fail s) {bits addr : Nat} {value : BitVec bits}
    (goes : Triple dev (regs.Shows (image.put addr value)) rest post) :
    Triple dev (regs.Shows image) (writeCheck bits addr value rest) post :=
  Registers.write_rule goes (triple_done fun s _ => failed s)

theorem runFlow_rule (failed : ∀ s, post .fail s) {version : Version} {table : List WlanPwrCfg}
    (ends : Ends version table)
    (goes : Triple dev (regs.Shows (applyAll (commands version table) image)) rest post) :
    Triple dev (regs.Shows image) (runFlow version table rest) post := by
  have flow : Triple dev (regs.Shows image) (pwrSeqCmdPrasing version table)
      (Leaves regs image (commands version table) (Ends version table)) :=
    pwrSeqLoop_leaves table image _
  refine triple_bind flow fun ret => ?_
  cases ret with
  | ok => exact goes.imp (fun s leaves => leaves.2 rfl) fun _ _ holds => holds
  | fail => exact triple_done fun s _ => failed s
  | outside => exact triple_done fun s leaves => absurd rfl (leaves.1 ends)

/-- The bits that are set in a register that has just been cleared. -/
theorem put_enable {value16 : BitVec 16} {byte i : Nat}
    (read : regs.Reads (image.put regCr 0#16) regCr value16) (low : i < 8)
    (own : ¬ regs.hardware byte i) :
    ((image.put regCr 0#16).put regCr (value16 ||| crEnable)) byte i =
      (image.put regCr crEnable) byte i := by
  unfold Image.put at read ⊢
  split
  · rename_i inside
    have place : (8 * (byte - regCr) + i) / 8 = byte - regCr := by omega
    have bit : (8 * (byte - regCr) + i) % 8 = i := by omega
    have seen := read _ inside.2
    rw [place, bit, Nat.add_sub_cancel' inside.1] at seen
    have clear := seen own
    dsimp only at clear
    rw [if_pos ⟨inside.1, inside.2⟩, BitVec.getLsbD_zero] at clear
    rw [BitVec.getLsbD_or, clear, Bool.false_or]
  · rfl

theorem enableCr_rule (failed : ∀ s, post .fail s)
    (goes : Triple dev (regs.Shows (image.put regCr crEnable)) rest post) :
    Triple dev (regs.Shows image) (enableCr rest) post := by
  apply writeCheck_rule failed
  apply Registers.look_rule
  intro value16 read
  apply writeCheck_rule failed
  refine goes.imp ?_ fun _ _ holds => holds
  intro s shows byte i low own
  rw [shows byte i low own]
  exact put_enable read low own

theorem waitWord_rule (goes : Triple dev (regs.Shows image) rest post) (word : BitVec 32)
    (index : Nat) : Triple dev (regs.Shows image) (waitWord word rest index) post := by
  induction index with
  | zero => exact goes
  | succ index ih =>
      apply Registers.look_rule
      intro value32 read
      split
      · exact goes
      · exact ih

theorem checkCr_rule (failed : ∀ s, post .fail s)
    (goes : Triple dev (regs.Shows image) rest post) :
    Triple dev (regs.Shows image) (checkCr rest) post := by
  apply Registers.look_rule
  intro byte0 read0
  apply Registers.look_rule
  intro byte1 read1
  apply Registers.look_rule
  intro byte2 read2
  apply Registers.look_rule
  intro byte3 read3
  split
  · exact triple_done fun s _ => failed s
  · apply Registers.look_rule
    intro value32 read32
    exact waitWord_rule goes _ 100

theorem put_put (bits addr : Nat) (value : BitVec bits) :
    (image.put addr value).put addr value = image.put addr value := by
  funext byte i
  unfold Image.put
  split <;> rfl

theorem powerCheck_rule (failed : ∀ s, post .fail s)
    (goes : Triple dev (regs.Shows (image.put 0x1b8 0x12345678#32)) rest post) (index : Nat) :
    Triple dev (regs.Shows image) (powerCheck rest index) post := by
  induction index generalizing image with
  | zero => exact triple_done fun s _ => failed s
  | succ index ih =>
      apply writeCheck_rule failed
      apply Registers.look_rule
      intro value32 read
      split
      · exact goes
      · apply ih
        rw [put_put]
        exact goes

theorem startClocks_rule (failed : ∀ s, post .fail s)
    (goes : Triple dev (regs.Shows (clocksImage image)) (.done .ok) post) :
    Triple dev (regs.Shows image) startClocks post := by
  apply powerCheck_rule failed
  apply Registers.look_rule
  intro before read
  apply writeCheck_rule failed
  apply Registers.look_rule
  intro after read'
  exact writeCheck_rule failed goes

end Steps

/-! ## Images that differ in one register -/

section Apart

variable {first second : Image} {place : Nat}

/-- The images agree in every other register. -/
def Apart (place : Nat) (first second : Image) : Prop :=
  ∀ byte i, byte ≠ place → first byte i = second byte i

theorem Apart.put (apart : Apart place first second) (bits addr : Nat) (value : BitVec bits) :
    Apart place (first.put addr value) (second.put addr value) := by
  intro byte i other
  unfold Image.put
  rw [apart byte i other]

theorem Apart.applyAll (apart : Apart place first second) (cmds : List WlanPwrCfg) :
    Apart place (applyAll cmds first) (applyAll cmds second) := by
  induction cmds generalizing first second with
  | nil => exact apart
  | cons cfg cmds ih =>
      apply ih
      intro byte i other
      dsimp only [WlanPwrCfg.apply]
      rw [apart byte i other]

end Apart

section Power

variable {State : Type} {dev : Device State} {regs : Registers dev} {image : Image}

theorem up_failed (hif : HifType) (s : State) : Up regs hif image .fail s := ⟨by decide, nofun⟩

theorem powerOnUsb_up :
    Triple dev (regs.Shows image) powerOnUsb (Up regs .usb image) := by
  have failed : ∀ s, Up regs .usb image .fail s := up_failed .usb
  apply writeCheck_rule failed
  apply writeCheck_rule failed
  apply writeCheck_rule failed
  apply writeCheck_rule failed
  apply runFlow_rule failed (by decide)
  apply enableCr_rule failed
  apply startClocks_rule failed
  exact triple_done fun s shows => ⟨by decide, fun _ byte i low own _ => shows byte i low own⟩

theorem powerOnSdio_up :
    Triple dev (regs.Shows image) powerOnSdio (Up regs .sdio image) := by
  have failed : ∀ s, Up regs .sdio image .fail s := up_failed .sdio
  apply writeCheck_rule failed
  apply Registers.look_rule
  intro value8 read
  apply Registers.write_ignored_rule
  intro other outside
  have apart : Apart 0xf8 other (image.put 0xac 0x02#8) := by
    intro byte i elsewhere
    apply outside
    omega
  apply writeCheck_rule failed
  apply writeCheck_rule failed
  apply writeCheck_rule failed
  apply Registers.look_rule
  intro version readBack
  split
  · exact triple_done fun s _ => failed s
  · apply writeCheck_rule failed
    apply runFlow_rule failed (by decide)
    apply enableCr_rule failed
    apply checkCr_rule failed
    apply startClocks_rule failed
    refine triple_done fun s shows => ⟨by decide, fun _ byte i low own free => ?_⟩
    have elsewhere : byte ≠ 0xf8 := fun here => free ⟨rfl, here⟩
    rw [shows byte i low own]
    exact (((((((((apart.put 8 _ _).put 8 _ _).put 8 _ _).put 8 _ _).applyAll _).put
      16 _ _).put 32 _ _).put 32 _ _).put 32 _ _) byte i elsewhere

/-- On either bus, and whatever bits the hardware changes by itself: when `power_on` succeeds,
every other bit is the one that a chip that is up has there.  On SDIO this leaves out register 0xf8,
whose write nobody checks. -/
theorem power_on_up (regs : Registers dev) (hif : HifType) (s : State) :
    Up regs hif (regs.bit s) ((powerOn hif).run dev s).1 ((powerOn hif).run dev s).2 := by
  have start : regs.Shows (regs.bit s) s := fun _ _ _ _ => rfl
  cases hif with
  | usb => exact powerOnUsb_up s start
  | sdio => exact powerOnSdio_up s start
  | unknown => exact up_failed _ s

end Power

end Smartchip.Pwr
