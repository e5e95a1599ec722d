import Smartchip.Foundation.BitField

/-!
# Registers of the base band and of the RF part

The helpers of `nic/ars/ars_hwconfig.c` that read and write a field of a register. A register of
the base band is a word of the bus; a word of the RF part is behind a serial interface that other
registers of the base band operate.
-/

namespace Smartchip.Ars

open Smartchip.Foundation

inductive RfPath
  | a
  | b
  deriving DecidableEq

/-! ## The chip -/

/-- `bMaskDWord` -/
def maskDWord : BitVec 32 := 0xffffffff#32

/-- `bRFRegOffsetMask` -/
def rfRegOffsetMask : BitVec 32 := 0xfffff#32

/-- `bLSSIReadAddress` -/
def lssiReadAddress : BitVec 32 := 0x7f800000#32

/-- `bLSSIReadEdge` -/
def lssiReadEdge : BitVec 32 := 0x80000000#32

/-- `bLSSIReadBackData` -/
def lssiReadBackData : BitVec 32 := 0xfffff#32

/-- `rFPGA0_XA_HSSIParameter1`, `rFPGA0_XB_HSSIParameter1` -/
def rfHSSIPara1 : RfPath → Nat
  | .a => 0x820
  | .b => 0x828

/-- `rFPGA0_XA_HSSIParameter2`, `rFPGA0_XB_HSSIParameter2` -/
def rfHSSIPara2 : RfPath → Nat
  | .a => 0x824
  | .b => 0x82c

/-- `rFPGA0_XA_LSSIParameter`, `rFPGA0_XB_LSSIParameter` -/
def rf3wireOffset : RfPath → Nat
  | .a => 0x840
  | .b => 0x844

/-- `rFPGA0_XA_LSSIReadBack`, `rFPGA0_XB_LSSIReadBack` -/
def rfLSSIReadBack : RfPath → Nat
  | .a => 0x8a0
  | .b => 0x8a4

/-- `TransceiverA_HSPI_Readback`, `TransceiverB_HSPI_Readback` -/
def rfLSSIReadBackPi : RfPath → Nat
  | .a => 0x8b8
  | .b => 0x8bc

/-- The chip behind the bus, with what the driver relies on of it. `read32` gives nothing where the
transfer fails, `rf` are the words of the RF part. -/
structure Chip (σ : Type) where
  read32 : Nat → σ → Option (BitVec 32)
  write32 : Nat → BitVec 32 → σ → σ
  rf : σ → RfPath → BitVec 8 → BitVec 20
  /-- No transfer fails. -/
  answers : σ → Prop
  /-- Registers that hold what is written to them. -/
  holds : Nat → Prop
  read_answers : ∀ addr s, answers s → (read32 addr s).isSome
  write_answers : ∀ addr value s, answers s → answers (write32 addr value s)
  read_written : ∀ addr value s, holds addr → (read32 addr s).isSome →
    read32 addr (write32 addr value s) = some value
  read_apart : ∀ addr other value s, holds addr → holds other → other ≠ addr →
    read32 other (write32 addr value s) = read32 other s
  holds_para2 : ∀ path, holds (rfHSSIPara2 path)
  /-- A write to the serial interface goes to the word whose number is above the data. -/
  rf_3wire : ∀ path value s other number, rf (write32 (rf3wireOffset path) value s) other number =
    if other = path ∧ number = (value >>> 20).setWidth 8 then value.setWidth 20
    else rf s other number
  rf_para2 : ∀ path value s, rf (write32 (rfHSSIPara2 path) value s) = rf s
  /-- After a rising edge the word whose number is in the parameters of a path is in its read-back
  register, which the first parameter register selects. -/
  rf_edge : ∀ path s old value control,
    read32 (rfHSSIPara2 .a) s = some old → old &&& lssiReadEdge = 0#32 →
    read32 (rfHSSIPara2 path) (write32 (rfHSSIPara2 .a) (old ||| lssiReadEdge) s) = some value →
    read32 (rfHSSIPara1 path) (write32 (rfHSSIPara2 .a) (old ||| lssiReadEdge) s) = some control →
    (read32 (if control.getLsbD 8 then rfLSSIReadBackPi path else rfLSSIReadBack path)
      (write32 (rfHSSIPara2 .a) (old ||| lssiReadEdge) s)).map (BitVec.setWidth 20) =
        some (rf s path ((value >>> 23).setWidth 8))

/-! ## The helpers -/

/-- The loop of `phy_CalculateBitShift`, which ends with 32 when there is no bit. -/
def phyCalculateBitShift (bitMask : BitVec 32) : Nat :=
  ((List.range 32).find? fun i => bitMask.getLsbD i).getD 32

namespace Chip

variable {σ : Type} (chip : Chip σ)

/-- `true` for `WF_RETURN_OK`. -/
def hwWriteBbReg (regAddr : Nat) (bitMask data : BitVec 32) (s : σ) : Bool × σ :=
  if bitMask ≠ maskDWord then
    match chip.read32 regAddr s with
    | none => (false, s)
    | some originalValue =>
        let bitShift := phyCalculateBitShift bitMask
        (true, chip.write32 regAddr
          ((originalValue &&& ~~~bitMask) ||| ((data <<< bitShift) &&& bitMask)) s)
  else (true, chip.write32 regAddr data s)

def hwReadBbReg (regAddr : Nat) (bitMask : BitVec 32) (s : σ) : BitVec 32 :=
  match chip.read32 regAddr s with
  | none => 0#32
  | some originalValue => (originalValue &&& bitMask) >>> phyCalculateBitShift bitMask

def phyRFSerialRead (rfPath : RfPath) (offset : BitVec 32) (s : σ) : BitVec 32 × σ :=
  let newOffset := offset &&& 0xff#32
  let tmplong := chip.hwReadBbReg (rfHSSIPara2 rfPath) maskDWord s
  let tmplong := (tmplong &&& ~~~lssiReadAddress) ||| (newOffset <<< 23) ||| lssiReadEdge
  let s := (chip.hwWriteBbReg (rfHSSIPara2 rfPath) maskDWord (tmplong &&& ~~~lssiReadEdge) s).2
  -- the edge is always made with the register of path A
  let tmplong := chip.hwReadBbReg (rfHSSIPara2 .a) maskDWord s
  let s := (chip.hwWriteBbReg (rfHSSIPara2 .a) maskDWord (tmplong &&& ~~~lssiReadEdge) s).2
  let s := (chip.hwWriteBbReg (rfHSSIPara2 .a) maskDWord (tmplong ||| lssiReadEdge) s).2
  let rfPiEnable := (chip.hwReadBbReg (rfHSSIPara1 rfPath) 0x100#32 s).setWidth 8
  let retValue :=
    if rfPiEnable ≠ 0#8 then chip.hwReadBbReg (rfLSSIReadBackPi rfPath) lssiReadBackData s
    else chip.hwReadBbReg (rfLSSIReadBack rfPath) lssiReadBackData s
  (retValue, s)

def phyRFSerialWrite (rfPath : RfPath) (offset data : BitVec 32) (s : σ) : σ :=
  let newOffset := offset &&& 0xff#32
  let dataAndAddr := ((newOffset <<< 20) ||| (data &&& 0x000fffff#32)) &&& 0x0fffffff#32
  (chip.hwWriteBbReg (rf3wireOffset rfPath) maskDWord dataAndAddr s).2

def hwReadRfReg (rfPath : RfPath) (regAddr bitMask : BitVec 32) (s : σ) : BitVec 32 × σ :=
  let (originalValue, s) := chip.phyRFSerialRead rfPath regAddr s
  ((originalValue &&& bitMask) >>> phyCalculateBitShift bitMask, s)

/-- Always `WF_RETURN_OK`. -/
def hwWriteRfReg (rfPath : RfPath) (regAddr bitMask data : BitVec 32) (s : σ) : σ :=
  if bitMask ≠ rfRegOffsetMask then
    let (originalValue, s) := chip.phyRFSerialRead rfPath regAddr s
    let bitShift := phyCalculateBitShift bitMask
    -- the value is not cut to the mask
    let data := (originalValue &&& ~~~bitMask) ||| (data <<< bitShift)
    chip.phyRFSerialWrite rfPath regAddr data s
  else chip.phyRFSerialWrite rfPath regAddr data s

/-! ## The base band -/

theorem phyCalculateBitShift_mask (field : BitField 32) :
    phyCalculateBitShift field.mask = field.low := by
  rw [phyCalculateBitShift, field.first_bit, Option.getD_some]

theorem phyCalculateBitShift_dword : phyCalculateBitShift maskDWord = 0 := by
  decide

theorem and_maskDWord (word : BitVec 32) : word &&& maskDWord = word :=
  BitVec.and_allOnes

theorem hwReadBbReg_dword {regAddr : Nat} {s : σ} {word : BitVec 32}
    (read : chip.read32 regAddr s = some word) :
    chip.hwReadBbReg regAddr maskDWord s = word := by
  simp [hwReadBbReg, read, phyCalculateBitShift_dword, and_maskDWord]

theorem hwWriteBbReg_dword (regAddr : Nat) (word : BitVec 32) (s : σ) :
    chip.hwWriteBbReg regAddr maskDWord word s = (true, chip.write32 regAddr word s) := by
  simp [hwWriteBbReg]

/-- A register that cannot be read is not written. -/
theorem hwWriteBbReg_none {regAddr : Nat} {s : σ} (read : chip.read32 regAddr s = none)
    {bitMask : BitVec 32} (part : bitMask ≠ maskDWord) (data : BitVec 32) :
    chip.hwWriteBbReg regAddr bitMask data s = (false, s) := by
  simp [hwWriteBbReg, part, read]

/-- What a register holds after a write, for every mask. -/
theorem hwWriteBbReg_some {regAddr : Nat} {s : σ} {old : BitVec 32}
    (read : chip.read32 regAddr s = some old) (bitMask data : BitVec 32) :
    chip.hwWriteBbReg regAddr bitMask data s = (true, chip.write32 regAddr
      (old &&& ~~~bitMask ||| data <<< phyCalculateBitShift bitMask &&& bitMask) s) := by
  rcases Decidable.em (bitMask = maskDWord) with whole | part
  · subst whole
    have none : old &&& ~~~maskDWord = 0#32 := by
      have zero : ~~~maskDWord = 0#32 := by decide
      rw [zero, BitVec.and_zero]
    simp [hwWriteBbReg, phyCalculateBitShift_dword, and_maskDWord, none]
  · simp [hwWriteBbReg, part, read]

/-- The register after a write of a field, and what a reader of the field gets then. -/
theorem bb_field {regAddr : Nat} {s : σ} {old : BitVec 32} (holds : chip.holds regAddr)
    (read : chip.read32 regAddr s = some old) (field : BitField 32) (data : BitVec 32) :
    (∃ new, chip.read32 regAddr (chip.hwWriteBbReg regAddr field.mask data s).2 = some new ∧
        new &&& ~~~field.mask = old &&& ~~~field.mask) ∧
      chip.hwReadBbReg regAddr field.mask (chip.hwWriteBbReg regAddr field.mask data s).2 =
        field.truncate data := by
  rw [chip.hwWriteBbReg_some read, phyCalculateBitShift_mask]
  have written := chip.read_written regAddr
    (old &&& ~~~field.mask ||| data <<< field.low &&& field.mask) s holds (by simp [read])
  constructor
  · exact ⟨_, written, BitField.merge_outside old (data <<< field.low) field.mask⟩
  · simp only [hwReadBbReg, written, phyCalculateBitShift_mask]
    rw [← field.merge_inside old data, BitVec.and_or_distrib_right, BitVec.and_or_distrib_right,
      BitVec.and_assoc (data <<< field.low), BitVec.and_self]

/-! ## The RF part -/

theorem read_some {s : σ} (answers : chip.answers s) (regAddr : Nat) :
    ∃ word, chip.read32 regAddr s = some word :=
  Option.isSome_iff_exists.mp (chip.read_answers regAddr s answers)

theorem eight_pos : 0 < 8 := by decide

def addressField : BitField 32 := ⟨23, 8, eight_pos, by decide⟩

def edgeField : BitField 32 := ⟨31, 1, by decide, by decide⟩

def byteField : BitField 32 := ⟨0, 8, eight_pos, by decide⟩

def wordField : BitField 32 := ⟨0, 20, by decide, by decide⟩

def controlField : BitField 32 := ⟨8, 1, by decide, by decide⟩

def addressedField : BitField 32 := ⟨0, 28, by decide, by decide⟩

theorem addressed_eq : 0x0fffffff#32 = addressedField.mask := by decide

theorem lssiReadAddress_eq : lssiReadAddress = addressField.mask := by decide

theorem lssiReadEdge_eq : lssiReadEdge = edgeField.mask := by decide

theorem byte_eq : 0xff#32 = byteField.mask := by decide

theorem lssiReadBackData_eq : lssiReadBackData = wordField.mask := by decide

theorem control_eq : 0x100#32 = controlField.mask := by decide

/-- The number of the word to read, in the parameters with or without the edge. -/
theorem number_read (old offset edge : BitVec 32)
    (only : edge = 0#32 ∨ edge = lssiReadEdge) :
    ((((old &&& ~~~lssiReadAddress ||| (offset &&& 0xff#32) <<< 23 ||| lssiReadEdge) &&&
      ~~~lssiReadEdge ||| edge) >>> 23).setWidth 8) = offset.setWidth 8 := by
  have above : ∀ i, i < 8 → edge.getLsbD (23 + i) = false := by
    intro i inside
    rcases only with rfl | rfl
    · exact BitVec.getLsbD_zero
    · rw [lssiReadEdge_eq, BitField.getLsbD_mask]
      apply decide_eq_false
      simp only [edgeField]
      omega
  apply BitVec.eq_of_getLsbD_eq
  intro i inside
  have room : 23 + i < 32 := by omega
  have below : ¬ 31 ≤ 23 + i := by omega
  have shifted : ¬ 23 + i < 23 := by omega
  have within : i < 32 := by omega
  have clear := above i inside
  rw [BitVec.getLsbD_eq_getElem room] at clear
  simp only [lssiReadEdge_eq, lssiReadAddress_eq, byte_eq, BitVec.getLsbD_setWidth,
    BitVec.getLsbD_ushiftRight, BitVec.getLsbD_or, BitVec.getLsbD_and, BitVec.getLsbD_not,
    BitVec.getLsbD_shiftLeft, BitField.getLsbD_mask, addressField, edgeField, byteField]
  simp [clear, inside, below, shifted, room, within]

theorem edge_again (word : BitVec 32) :
    word &&& ~~~lssiReadEdge ||| lssiReadEdge = word ||| lssiReadEdge := by
  rw [BitVec.or_comm, BitVec.or_comm word]
  apply BitVec.eq_of_getLsbD_eq
  intro i inside
  simp only [BitVec.getLsbD_and, BitVec.getLsbD_or, BitVec.getLsbD_not, inside]
  cases lssiReadEdge.getLsbD i <;> simp

theorem read_back_word (word : BitVec 32) :
    (word &&& lssiReadBackData) >>> phyCalculateBitShift lssiReadBackData =
      (word.setWidth 20).setWidth 32 := by
  rw [lssiReadBackData_eq, phyCalculateBitShift_mask]
  apply BitVec.eq_of_getLsbD_eq
  intro i inside
  simp only [wordField, BitVec.getLsbD_ushiftRight, BitVec.getLsbD_and, BitField.getLsbD_mask,
    BitVec.getLsbD_setWidth, Nat.zero_add, Nat.zero_le, true_and, inside, decide_true,
    Bool.true_and, Bool.and_comm]

theorem read_back_control (word : BitVec 32) :
    ((word &&& 0x100#32) >>> phyCalculateBitShift 0x100#32).setWidth 8 ≠ 0#8 ↔
      word.getLsbD 8 = true := by
  rw [control_eq, phyCalculateBitShift_mask]
  constructor
  · intro set
    by_contra clear
    apply set
    apply BitVec.eq_of_getLsbD_eq
    intro i inside
    rcases Nat.eq_zero_or_pos i with rfl | pos
    · simp_all [controlField]
    · have above : ¬ 8 + i < 9 := by omega
      simp [controlField, above]
  · intro set none
    have bit := congrArg (fun word => word.getLsbD 0) none
    simp only [controlField, BitVec.getLsbD_setWidth, BitVec.getLsbD_ushiftRight,
      BitVec.getLsbD_and, BitField.getLsbD_mask, BitVec.getLsbD_zero, Nat.add_zero, set] at bit
    simp at bit

theorem number_written (offset data : BitVec 32) :
    (((((offset &&& 0xff#32) <<< 20) ||| (data &&& 0x000fffff#32)) &&& 0x0fffffff#32) >>>
      20).setWidth 8 = offset.setWidth 8 := by
  apply BitVec.eq_of_getLsbD_eq
  intro i inside
  have room : 20 + i < 28 := by omega
  have word : 20 + i < 32 := by omega
  have shifted : ¬ 20 + i < 20 := by omega
  have within : i < 32 := by omega
  have cut : 0x000fffff#32 = wordField.mask := lssiReadBackData_eq
  simp only [cut, byte_eq, addressed_eq, BitVec.getLsbD_setWidth, BitVec.getLsbD_ushiftRight,
    BitVec.getLsbD_or, BitVec.getLsbD_and, BitVec.getLsbD_shiftLeft, BitField.getLsbD_mask,
    wordField, byteField, addressedField]
  simp [inside, room, word, shifted, within]

theorem data_written (offset data : BitVec 32) :
    ((((offset &&& 0xff#32) <<< 20) ||| (data &&& 0x000fffff#32)) &&& 0x0fffffff#32).setWidth 20 =
      data.setWidth 20 := by
  apply BitVec.eq_of_getLsbD_eq
  intro i inside
  have room : i < 28 := by omega
  have within : i < 32 := by omega
  have cut : 0x000fffff#32 = wordField.mask := lssiReadBackData_eq
  simp only [cut, byte_eq, addressed_eq, BitVec.getLsbD_setWidth, BitVec.getLsbD_or,
    BitVec.getLsbD_and, BitVec.getLsbD_shiftLeft, BitField.getLsbD_mask, wordField, byteField,
    addressedField]
  simp [inside, room, within]

section Serial

variable {chip} {s : σ}

/-- The three writes of a serial read and what the last reads find, from the words that the
parameter registers hold. -/
theorem phyRFSerialRead_run {rfPath : RfPath} {offset old numbered para control back : BitVec 32}
    {first lowered raised : σ}
    (readOld : chip.read32 (rfHSSIPara2 rfPath) s = some old)
    (isNumbered : (old &&& ~~~lssiReadAddress ||| (offset &&& 0xff#32) <<< 23 ||| lssiReadEdge) &&&
      ~~~lssiReadEdge = numbered)
    (isFirst : chip.write32 (rfHSSIPara2 rfPath) numbered s = first)
    (readPara : chip.read32 (rfHSSIPara2 .a) first = some para)
    (isLowered : chip.write32 (rfHSSIPara2 .a) (para &&& ~~~lssiReadEdge) first = lowered)
    (isRaised : chip.write32 (rfHSSIPara2 .a) (para ||| lssiReadEdge) lowered = raised)
    (readControl : chip.read32 (rfHSSIPara1 rfPath) raised = some control)
    (readBack : chip.read32 (if control.getLsbD 8 then rfLSSIReadBackPi rfPath
      else rfLSSIReadBack rfPath) raised = some back) :
    chip.phyRFSerialRead rfPath offset s = ((back.setWidth 20).setWidth 32, raised) := by
  have enabled : (chip.hwReadBbReg (rfHSSIPara1 rfPath) 0x100#32 raised).setWidth 8 ≠ 0#8 ↔
      control.getLsbD 8 = true := by
    simp only [hwReadBbReg, readControl]
    exact read_back_control control
  simp only [phyRFSerialRead, hwWriteBbReg_dword, hwReadBbReg_dword chip readOld, isNumbered,
    isFirst, hwReadBbReg_dword chip readPara, isLowered, isRaised, enabled, Prod.mk.injEq,
    and_true]
  split_ifs at readBack ⊢ with pi
  · simp only [hwReadBbReg, readBack]
    exact read_back_word back
  · simp only [hwReadBbReg, readBack]
    exact read_back_word back

/-- What a serial read gives: the word, and nothing of the RF part is changed. -/
theorem phyRFSerialRead_eq (answers : chip.answers s) (rfPath : RfPath) (offset : BitVec 32) :
    ∃ raised, chip.phyRFSerialRead rfPath offset s =
        ((chip.rf s rfPath (offset.setWidth 8)).setWidth 32, raised) ∧
      chip.rf raised = chip.rf s ∧ chip.answers raised := by
  -- the number is put into the parameters of the path
  obtain ⟨old, readOld⟩ := chip.read_some answers (rfHSSIPara2 rfPath)
  obtain ⟨numbered, isNumbered⟩ : ∃ word, (old &&& ~~~lssiReadAddress |||
      (offset &&& 0xff#32) <<< 23 ||| lssiReadEdge) &&& ~~~lssiReadEdge = word := ⟨_, rfl⟩
  obtain ⟨first, isFirst⟩ : ∃ t, chip.write32 (rfHSSIPara2 rfPath) numbered s = t := ⟨_, rfl⟩
  have answersFirst : chip.answers first := isFirst ▸ chip.write_answers _ _ _ answers
  have readNumbered : chip.read32 (rfHSSIPara2 rfPath) first = some numbered :=
    isFirst ▸ chip.read_written _ _ _ (chip.holds_para2 rfPath) (chip.read_answers _ _ answers)
  -- the edge is lowered and raised with those of path A
  obtain ⟨para, readPara⟩ := chip.read_some answersFirst (rfHSSIPara2 .a)
  obtain ⟨lowered, isLowered⟩ : ∃ t,
      chip.write32 (rfHSSIPara2 .a) (para &&& ~~~lssiReadEdge) first = t := ⟨_, rfl⟩
  obtain ⟨raised, isRaised⟩ : ∃ t,
      chip.write32 (rfHSSIPara2 .a) (para ||| lssiReadEdge) lowered = t := ⟨_, rfl⟩
  have answersLowered : chip.answers lowered := isLowered ▸ chip.write_answers _ _ _ answersFirst
  have answersRaised : chip.answers raised := isRaised ▸ chip.write_answers _ _ _ answersLowered
  have readLowered : chip.read32 (rfHSSIPara2 .a) lowered = some (para &&& ~~~lssiReadEdge) :=
    isLowered ▸ chip.read_written _ _ _ (chip.holds_para2 .a)
      (chip.read_answers _ _ answersFirst)
  have readRaised : ∃ edge, (edge = 0#32 ∨ edge = lssiReadEdge) ∧
      chip.read32 (rfHSSIPara2 rfPath) raised = some (numbered ||| edge) := by
    cases rfPath with
    | a =>
        have same : para = numbered := by simpa [readNumbered] using readPara.symm
        have written := chip.read_written (rfHSSIPara2 .a) (para ||| lssiReadEdge) lowered
          (chip.holds_para2 .a) (chip.read_answers _ _ answersLowered)
        rw [isRaised, same] at written
        exact ⟨lssiReadEdge, Or.inr rfl, written⟩
    | b =>
        have kept (value : BitVec 32) (t : σ) :
            chip.read32 (rfHSSIPara2 .b) (chip.write32 (rfHSSIPara2 .a) value t) =
              chip.read32 (rfHSSIPara2 .b) t :=
          chip.read_apart _ _ _ _ (chip.holds_para2 .a) (chip.holds_para2 .b) (by decide)
        refine ⟨0#32, Or.inl rfl, ?_⟩
        rw [← isRaised, kept, ← isLowered, kept, readNumbered, BitVec.or_zero]
  obtain ⟨edge, only, readNumber⟩ := readRaised
  obtain ⟨control, readControl⟩ := chip.read_some answersRaised (rfHSSIPara1 rfPath)
  -- what the edge latches
  have low : (para &&& ~~~lssiReadEdge) &&& lssiReadEdge = 0#32 := by
    simp [BitVec.and_assoc, BitVec.not_and_self]
  have latched := chip.rf_edge rfPath lowered (para &&& ~~~lssiReadEdge) (numbered ||| edge)
    control readLowered low
  rw [edge_again, isRaised] at latched
  have word := latched readNumber readControl
  rw [← isNumbered, number_read old offset edge only, ← isLowered, chip.rf_para2, ← isFirst,
    chip.rf_para2] at word
  obtain ⟨back, readBack, cut⟩ := Option.map_eq_some_iff.mp word
  refine ⟨raised, ?_, ?_, answersRaised⟩
  · rw [← cut]
    exact phyRFSerialRead_run readOld isNumbered isFirst readPara isLowered isRaised readControl
      readBack
  · rw [← isRaised, chip.rf_para2, ← isLowered, chip.rf_para2, ← isFirst, chip.rf_para2]

/-- What a serial write changes. -/
theorem phyRFSerialWrite_rf (rfPath : RfPath) (offset data : BitVec 32) (other : RfPath)
    (number : BitVec 8) :
    chip.rf (chip.phyRFSerialWrite rfPath offset data s) other number =
      if other = rfPath ∧ number = offset.setWidth 8 then data.setWidth 20
      else chip.rf s other number := by
  rw [phyRFSerialWrite, hwWriteBbReg_dword, chip.rf_3wire, number_written, data_written]

theorem phyRFSerialWrite_answers (answers : chip.answers s) (rfPath : RfPath)
    (offset data : BitVec 32) : chip.answers (chip.phyRFSerialWrite rfPath offset data s) := by
  rw [phyRFSerialWrite, hwWriteBbReg_dword]
  exact chip.write_answers _ _ _ answers

/-- The word that a write of a field puts into the RF part. -/
def rfMerged (old : BitVec 20) (field : BitField 20) (data : BitVec 32) : BitVec 20 :=
  old &&& ~~~field.mask ||| (data <<< field.low).setWidth 20

/-- A field of a word of the RF part, in the words of the bus. -/
def rfField (field : BitField 20) : BitField 32 := field.widen (by decide)

theorem merged_cut (old : BitVec 20) (field : BitField 20) (data : BitVec 32) :
    ((old.setWidth 32 &&& ~~~(rfField field).mask) ||| data <<< field.low).setWidth 20 =
      rfMerged old field data := by
  rw [rfMerged, BitVec.setWidth_or, BitVec.setWidth_and, BitVec.setWidth_not (by decide),
    rfField, field.setWidth_widen_mask, BitVec.setWidth_setWidth_of_le _ (by decide),
    BitVec.setWidth_eq]

/-- A whole word replaces the old one. -/
theorem merged_whole {field : BitField 20} (whole : (rfField field).mask = rfRegOffsetMask)
    (old : BitVec 20) (data : BitVec 32) : rfMerged old field data = data.setWidth 20 := by
  have low : field.low = 0 := by
    have first := phyCalculateBitShift_mask (rfField field)
    rw [whole] at first
    exact first.symm.trans (by decide)
  have all : ~~~field.mask = 0#20 := by
    rw [← field.setWidth_widen_mask (m := 32) (by decide)]
    have cut := congrArg (BitVec.setWidth 20) whole
    exact (congrArg (fun word => ~~~word) cut).trans (by decide)
  simp [rfMerged, low, all]

/-- What a write of a field changes. -/
theorem hwWriteRfReg_eq (answers : chip.answers s) (rfPath : RfPath) (regAddr : BitVec 32)
    (field : BitField 20) (data : BitVec 32) :
    chip.answers (chip.hwWriteRfReg rfPath regAddr (rfField field).mask data s) ∧
      ∀ other number,
        chip.rf (chip.hwWriteRfReg rfPath regAddr (rfField field).mask data s) other number =
          if other = rfPath ∧ number = regAddr.setWidth 8 then
            rfMerged (chip.rf s rfPath (regAddr.setWidth 8)) field data
          else chip.rf s other number := by
  rcases Decidable.em ((rfField field).mask = rfRegOffsetMask) with whole | part
  · simp only [hwWriteRfReg, whole, ne_eq, not_true_eq_false, if_false, merged_whole whole]
    exact ⟨phyRFSerialWrite_answers answers rfPath regAddr data,
      phyRFSerialWrite_rf rfPath regAddr data⟩
  · obtain ⟨raised, read, unchanged, raisedAnswers⟩ := phyRFSerialRead_eq answers rfPath regAddr
    simp only [hwWriteRfReg, part, ne_eq, not_false_eq_true, if_true, read,
      phyCalculateBitShift_mask]
    constructor
    · exact phyRFSerialWrite_answers raisedAnswers rfPath regAddr _
    · intro other number
      have cut := merged_cut (chip.rf s rfPath (regAddr.setWidth 8)) field data
      rw [phyRFSerialWrite_rf, unchanged]
      exact if_congr Iff.rfl cut rfl

/-- What a reader of a field gets. -/
theorem hwReadRfReg_eq (answers : chip.answers s) (rfPath : RfPath) (regAddr : BitVec 32)
    (field : BitField 20) :
    (chip.hwReadRfReg rfPath regAddr (rfField field).mask s).1 =
      ((chip.rf s rfPath (regAddr.setWidth 8)).setWidth 32 &&& (rfField field).mask) >>>
        field.low := by
  obtain ⟨raised, read, -⟩ := phyRFSerialRead_eq answers rfPath regAddr
  simp only [hwReadRfReg, read, phyCalculateBitShift_mask]
  rfl

/-- A field of the RF part is read back as it was written. -/
theorem rf_read_back (answers : chip.answers s) (rfPath : RfPath) (regAddr : BitVec 32)
    (field : BitField 20) (data : BitVec 32) :
    (chip.hwReadRfReg rfPath regAddr (rfField field).mask
      (chip.hwWriteRfReg rfPath regAddr (rfField field).mask data s)).1 =
        (rfField field).truncate data := by
  obtain ⟨still, written⟩ := hwWriteRfReg_eq answers rfPath regAddr field data
  rw [hwReadRfReg_eq still, written, if_pos ⟨rfl, rfl⟩, ← merged_cut]
  have inner := field.and_widen_mask (m := 32) (by decide)
    ((chip.rf s rfPath (regAddr.setWidth 8)).setWidth 32 &&& ~~~(rfField field).mask |||
      data <<< field.low)
  have inside := (rfField field).merge_inside
    ((chip.rf s rfPath (regAddr.setWidth 8)).setWidth 32) data
  have low : (rfField field).low = field.low := rfl
  rw [low] at inside
  exact (congrArg (fun word : BitVec 32 => word >>> field.low) inner).trans inside

end Serial

end Chip

/-! ## Fields of both parts -/

/-- A write of a field of the base band changes nothing else of the register, and a reader gets
what has room in the field. -/
def BbFieldAccess {σ : Type} (chip : Chip σ) (regAddr : Nat) (field : BitField 32)
    (data old : BitVec 32) (s : σ) : Prop :=
  (∃ new, chip.read32 regAddr (chip.hwWriteBbReg regAddr field.mask data s).2 = some new ∧
      new &&& ~~~field.mask = old &&& ~~~field.mask) ∧
    chip.hwReadBbReg regAddr field.mask (chip.hwWriteBbReg regAddr field.mask data s).2 =
      field.truncate data

/-- The same of a word of the RF part, of which no other word changes. -/
def RfFieldAccess {σ : Type} (chip : Chip σ) (rfPath : RfPath) (regAddr : BitVec 32)
    (field : BitField 20) (data : BitVec 32) (s : σ) : Prop :=
  let mask := (Chip.rfField field).mask
  let after := chip.hwWriteRfReg rfPath regAddr mask data s
  chip.rf after rfPath (regAddr.setWidth 8) &&& ~~~field.mask =
      chip.rf s rfPath (regAddr.setWidth 8) &&& ~~~field.mask ∧
    (∀ other number, (other ≠ rfPath ∨ number ≠ regAddr.setWidth 8) →
      chip.rf after other number = chip.rf s other number) ∧
    (chip.hwReadRfReg rfPath regAddr mask after).1 = (Chip.rfField field).truncate data

/-- Fields of the base band are right for all data, fields of the RF part where no bit of the data
that is above the field is one more bit of the word. -/
theorem masked_access_iff {σ : Type} (chip : Chip σ) (s : σ) (answers : chip.answers s) :
    (∀ (regAddr : Nat) (field : BitField 32) (data old : BitVec 32), chip.holds regAddr →
      chip.read32 regAddr s = some old → BbFieldAccess chip regAddr field data old s) ∧
    ∀ (rfPath : RfPath) (regAddr : BitVec 32) (field : BitField 20) (data : BitVec 32),
      RfFieldAccess chip rfPath regAddr field data s ↔
        (data <<< field.low).setWidth 20 &&& ~~~field.mask &&&
          ~~~chip.rf s rfPath (regAddr.setWidth 8) = 0#20 := by
  constructor
  · intro regAddr field data old holds read
    exact chip.bb_field holds read field data
  · intro rfPath regAddr field data
    obtain ⟨-, written⟩ := Chip.hwWriteRfReg_eq answers rfPath regAddr field data
    have back := Chip.rf_read_back answers rfPath regAddr field data
    simp only [RfFieldAccess, back, and_true]
    rw [← BitField.merge_outside_iff, written, if_pos ⟨rfl, rfl⟩, Chip.rfMerged]
    constructor
    · rintro ⟨outside, -⟩
      exact outside
    · intro outside
      refine ⟨outside, ?_⟩
      intro other number apart
      rw [written, if_neg]
      rintro ⟨rfl, rfl⟩
      simp at apart

/-! ## A chip -/

structure Bench where
  regs : Nat → BitVec 32
  words : RfPath → BitVec 8 → BitVec 20

/-- The path that a read-back register belongs to. -/
def readBackOf (addr : Nat) : Option RfPath :=
  if addr = rfLSSIReadBack .a ∨ addr = rfLSSIReadBackPi .a then some .a
  else if addr = rfLSSIReadBack .b ∨ addr = rfLSSIReadBackPi .b then some .b
  else none

/-- The path that a register of the serial interface belongs to. -/
def writtenBy (addr : Nat) : Option RfPath :=
  if addr = rf3wireOffset .a then some .a
  else if addr = rf3wireOffset .b then some .b
  else none

def Bench.read32 (addr : Nat) (s : Bench) : Option (BitVec 32) :=
  match readBackOf addr with
  | some path => some ((s.words path ((s.regs (rfHSSIPara2 path) >>> 23).setWidth 8)).setWidth 32)
  | none => some (s.regs addr)

def Bench.write32 (addr : Nat) (value : BitVec 32) (s : Bench) : Bench where
  regs other := if other = addr then value else s.regs other
  words path number :=
    if writtenBy addr = some path ∧ number = (value >>> 20).setWidth 8 then value.setWidth 20
    else s.words path number

def bench : Chip Bench where
  read32 := Bench.read32
  write32 := Bench.write32
  rf := Bench.words
  answers _ := True
  holds addr := readBackOf addr = none
  read_answers := by
    intro addr s _
    unfold Bench.read32
    split <;> rfl
  write_answers _ _ _ _ := trivial
  read_written := by
    intro addr value s holds _
    simp [Bench.read32, Bench.write32, holds]
  read_apart := by
    intro addr other value s _ holds apart
    simp [Bench.read32, Bench.write32, holds, apart]
  holds_para2 := by
    intro path
    cases path <;> rfl
  rf_3wire := by
    intro path value s other number
    have own : writtenBy (rf3wireOffset path) = some path := by cases path <;> rfl
    simp only [Bench.write32, own, Option.some.injEq, eq_comm]
  rf_para2 := by
    intro path value s
    have none : writtenBy (rfHSSIPara2 path) = none := by cases path <;> rfl
    simp [Bench.write32, none]
  rf_edge := by
    intro path s old value control _ _ number _
    have none : readBackOf (rfHSSIPara2 path) = none := by cases path <;> rfl
    have own : readBackOf (if control.getLsbD 8 then rfLSSIReadBackPi path
        else rfLSSIReadBack path) = some path := by
      cases control.getLsbD 8 <;> cases path <;> rfl
    have unwritten : writtenBy (rfHSSIPara2 .a) = Option.none := rfl
    simp only [Bench.read32, none, Option.some.injEq] at number
    simp only [Bench.read32, own, number, Option.map_some, Option.some.injEq]
    rw [BitVec.setWidth_setWidth_of_le _ (by decide), BitVec.setWidth_eq]
    simp [Bench.write32, unwritten]

/-- A bench on which every register and every word is clear. -/
def clearBench : Bench := ⟨fun _ => 0#32, fun _ _ => 0#20⟩

/-- The lowest bit of a word, written with a value of two bits. -/
theorem rf_spill :
    ¬ RfFieldAccess bench .a 0x18#32 ⟨0, 1, by decide, by decide⟩ 2#32 clearBench := by
  intro access
  exact absurd access.1 (by decide)

theorem masked_access_bench :
    (∀ (regAddr : Nat) (field : BitField 32) (data old : BitVec 32), bench.holds regAddr →
      bench.read32 regAddr clearBench = some old →
        BbFieldAccess bench regAddr field data old clearBench) ∧
    ∀ (rfPath : RfPath) (regAddr : BitVec 32) (field : BitField 20) (data : BitVec 32),
      RfFieldAccess bench rfPath regAddr field data clearBench ↔
        (data <<< field.low).setWidth 20 &&& ~~~field.mask &&&
          ~~~bench.rf clearBench rfPath (regAddr.setWidth 8) = 0#20 :=
  masked_access_iff bench clearBench trivial

end Smartchip.Ars
