import Mathlib.Data.List.Basic
import Mathlib.Order.Basic

/-!
# Programs that talk to a device

A program reads and writes registers and waits.  A device is any machine that answers: it may
go on by itself at every access.  A triple says what holds when the program ends, a budget how
often it asks and how long it waits, whatever the device answers.
-/

namespace Smartchip.Foundation

universe u v w

/-- The first number is the width of the access in bits.  A write tells whether it was taken. -/
structure Device (State : Type u) where
  read : (bits : Nat) → Nat → State → BitVec bits × State
  write : (bits : Nat) → Nat → BitVec bits → State → Bool × State
  delay : Nat → State → State

/-- `polls` marks a read that asks whether the device is ready. -/
inductive Program (Result : Type v) where
  | done (result : Result)
  | look (polls : Bool) (bits addr : Nat) (rest : BitVec bits → Program Result)
  | write (bits addr : Nat) (value : BitVec bits) (rest : Bool → Program Result)
  | delay (millis : Nat) (rest : Program Result)

namespace Program

variable {State : Type u} {Result : Type v} {After : Type w}

abbrev read (bits addr : Nat) (rest : BitVec bits → Program Result) : Program Result :=
  look false bits addr rest

abbrev poll (bits addr : Nat) (rest : BitVec bits → Program Result) : Program Result :=
  look true bits addr rest

def bind (first : Program Result) (second : Result → Program After) : Program After :=
  match first with
  | done result => second result
  | look polls bits addr rest => look polls bits addr fun value => (rest value).bind second
  | write bits addr value rest => write bits addr value fun taken => (rest taken).bind second
  | delay millis rest => delay millis (rest.bind second)

def run (dev : Device State) : Program Result → State → Result × State
  | done result, s => (result, s)
  | look _ bits addr rest, s =>
      let answer := dev.read bits addr s
      (rest answer.1).run dev answer.2
  | write bits addr value rest, s =>
      let answer := dev.write bits addr value s
      (rest answer.1).run dev answer.2
  | delay millis rest, s => rest.run dev (dev.delay millis s)

theorem run_bind (dev : Device State) (first : Program Result)
    (second : Result → Program After) (s : State) :
    (first.bind second).run dev s = (second (first.run dev s).1).run dev (first.run dev s).2 := by
  induction first generalizing s with
  | done result => rfl
  | look polls bits addr rest ih => exact ih _ _
  | write bits addr value rest ih => exact ih _ _
  | delay millis rest ih => exact ih _

/-! ## Triples -/

def Triple (dev : Device State) (pre : State → Prop) (program : Program Result)
    (post : Result → State → Prop) : Prop :=
  ∀ s, pre s → post (program.run dev s).1 (program.run dev s).2

section Rules

variable {dev : Device State} {pre mid : State → Prop} {program : Program Result}
  {post weak : Result → State → Prop}

theorem triple_done {result : Result} (holds : ∀ s, pre s → post result s) :
    Triple dev pre (done result) post := holds

theorem triple_look {polls : Bool} {bits addr : Nat} {rest : BitVec bits → Program Result}
    (answers : ∀ value, Triple dev
      (fun after => ∃ s, pre s ∧ dev.read bits addr s = (value, after)) (rest value) post) :
    Triple dev pre (look polls bits addr rest) post := by
  intro s holds
  exact answers (dev.read bits addr s).1 (dev.read bits addr s).2 ⟨s, holds, rfl⟩

theorem triple_write {bits addr : Nat} {value : BitVec bits} {rest : Bool → Program Result}
    (answers : ∀ taken, Triple dev
      (fun after => ∃ s, pre s ∧ dev.write bits addr value s = (taken, after)) (rest taken) post) :
    Triple dev pre (write bits addr value rest) post := by
  intro s holds
  exact answers (dev.write bits addr value s).1 (dev.write bits addr value s).2 ⟨s, holds, rfl⟩

theorem triple_delay {millis : Nat} {rest : Program Result}
    (waits : Triple dev (fun after => ∃ s, pre s ∧ dev.delay millis s = after) rest post) :
    Triple dev pre (delay millis rest) post := by
  intro s holds
  exact waits (dev.delay millis s) ⟨s, holds, rfl⟩

theorem triple_bind {second : Result → Program After} {final : After → State → Prop}
    (first : Triple dev pre program post)
    (goes : ∀ result, Triple dev (post result) (second result) final) :
    Triple dev pre (program.bind second) final := by
  intro s holds
  rw [run_bind]
  exact goes _ _ (first s holds)

theorem Triple.imp (triple : Triple dev mid program weak) (before : ∀ s, pre s → mid s)
    (after : ∀ result s, weak result s → post result s) : Triple dev pre program post :=
  fun s holds => after _ _ (triple s (before s holds))

end Rules

/-! ## Registers

A bit of a register belongs to the driver or to the hardware.  The driver's bits stay as they
were written; nothing is known of the others.
-/

/-- The value of bit `i` of the byte at an address. -/
abbrev Image := Nat → Nat → Bool

def Image.put (image : Image) {bits : Nat} (addr : Nat) (value : BitVec bits) : Image :=
  fun byte i =>
    if addr ≤ byte ∧ 8 * (byte - addr) + i < bits then value.getLsbD (8 * (byte - addr) + i)
    else image byte i

structure Registers (dev : Device State) where
  bit : State → Image
  hardware : Nat → Nat → Prop
  read_value : ∀ bits addr s i, i < bits → ¬ hardware (addr + i / 8) (i % 8) →
    (dev.read bits addr s).1.getLsbD i = bit s (addr + i / 8) (i % 8)
  read_kept : ∀ bits addr s byte i, ¬ hardware byte i →
    bit (dev.read bits addr s).2 byte i = bit s byte i
  write_put : ∀ bits addr value s byte i, i < 8 → ¬ hardware byte i →
    (dev.write bits addr value s).1 = true →
    bit (dev.write bits addr value s).2 byte i = (bit s).put addr value byte i
  refused_kept : ∀ bits addr value s byte i, ¬ hardware byte i →
    ¬ (addr ≤ byte ∧ 8 * (byte - addr) + i < bits) →
    (dev.write bits addr value s).1 = false →
    bit (dev.write bits addr value s).2 byte i = bit s byte i
  delay_kept : ∀ millis s byte i, ¬ hardware byte i →
    bit (dev.delay millis s) byte i = bit s byte i

def gather (bit : Nat → Bool) : (bits : Nat) → BitVec bits
  | 0 => 0#0
  | bits + 1 => .cons (bit bits) (gather bit bits)

theorem getLsbD_gather (bit : Nat → Bool) {bits i : Nat} (inside : i < bits) :
    (gather bit bits).getLsbD i = bit i := by
  induction bits with
  | zero => omega
  | succ bits ih =>
      rw [gather, BitVec.getLsbD_cons]
      split
      · rename_i last
        rw [last]
      · exact ih (by omega)

/-- A device that is nothing but its registers. -/
def plain : Device Image where
  read bits addr s := (gather (fun i => s (addr + i / 8) (i % 8)) bits, s)
  write _ addr value s := (true, s.put addr value)
  delay _ s := s

def plainRegisters : Registers plain where
  bit s := s
  hardware _ _ := False
  read_value _ _ _ _ inside _ := getLsbD_gather _ inside
  read_kept _ _ _ _ _ _ := rfl
  write_put _ _ _ _ _ _ _ _ _ := rfl
  refused_kept _ _ _ _ _ _ _ _ refused := by cases refused
  delay_kept _ _ _ _ _ := rfl

namespace Registers

variable {dev : Device State} (regs : Registers dev)

/-- The driver's bits are those of the image. -/
def Shows (image : Image) (s : State) : Prop :=
  ∀ byte i, i < 8 → ¬ regs.hardware byte i → regs.bit s byte i = image byte i

/-- The driver's bits of a value are those that the image has at the address. -/
def Reads (image : Image) {bits : Nat} (addr : Nat) (value : BitVec bits) : Prop :=
  ∀ i < bits, ¬ regs.hardware (addr + i / 8) (i % 8) →
    value.getLsbD i = image (addr + i / 8) (i % 8)

variable {regs} {image : Image} {post : Result → State → Prop}

theorem look_rule {polls : Bool} {bits addr : Nat} {rest : BitVec bits → Program Result}
    (answers : ∀ value, regs.Reads image addr value →
      Triple dev (regs.Shows image) (rest value) post) :
    Triple dev (regs.Shows image) (look polls bits addr rest) post := by
  apply triple_look
  rintro value after ⟨s, shows, answer⟩
  have kept := regs.read_kept bits addr s
  have seen := regs.read_value bits addr s
  rw [answer] at kept seen
  apply answers value
  · intro i inside own
    rw [seen i inside own]
    exact shows _ _ (Nat.mod_lt _ (by decide)) own
  · intro byte i low own
    rw [kept byte i own]
    exact shows byte i low own

/-- Of a write that was not taken nothing is known. -/
theorem write_rule {bits addr : Nat} {value : BitVec bits} {rest : Bool → Program Result}
    (taken : Triple dev (regs.Shows (image.put addr value)) (rest true) post)
    (refused : Triple dev (fun _ => True) (rest false) post) :
    Triple dev (regs.Shows image) (write bits addr value rest) post := by
  apply triple_write
  rintro answer after ⟨s, shows, eq⟩
  cases answer with
  | false => exact refused after trivial
  | true =>
      have put := regs.write_put bits addr value s
      rw [eq] at put
      apply taken after
      intro byte i low own
      rw [put byte i low own rfl]
      unfold Image.put
      split
      · rfl
      · exact shows byte i low own

/-- A write whose answer is not looked at leaves anything in the place it goes to. -/
theorem write_ignored_rule {bits addr : Nat} {value : BitVec bits} {rest : Program Result}
    (goes : ∀ other : Image, (∀ byte i, ¬ (addr ≤ byte ∧ 8 * (byte - addr) + i < bits) →
      other byte i = image byte i) → Triple dev (regs.Shows other) rest post) :
    Triple dev (regs.Shows image) (write bits addr value fun _ => rest) post := by
  apply triple_write
  rintro answer after ⟨s, shows, eq⟩
  have kept := regs.refused_kept bits addr value s
  have put := regs.write_put bits addr value s
  rw [eq] at kept put
  apply goes fun byte i =>
    if addr ≤ byte ∧ 8 * (byte - addr) + i < bits then regs.bit after byte i else image byte i
  · intro byte i outside
    rw [if_neg outside]
  · intro byte i low own
    dsimp only
    split
    · rfl
    · rename_i outside
      rw [← shows byte i low own]
      cases answer with
      | false => exact kept byte i own outside rfl
      | true =>
          rw [put byte i low own rfl, Image.put, if_neg outside]

theorem delay_rule {millis : Nat} {rest : Program Result}
    (waits : Triple dev (regs.Shows image) rest post) :
    Triple dev (regs.Shows image) (delay millis rest) post := by
  apply triple_delay
  rintro after ⟨s, shows, rfl⟩
  apply waits
  intro byte i low own
  rw [regs.delay_kept millis s byte i own]
  exact shows byte i low own

end Registers

/-! ## Budgets -/

/-- `reads` are those that do not poll. -/
structure Usage where
  reads : Nat
  polls : Nat
  writes : Nat
  millis : Nat
deriving DecidableEq, Repr

namespace Usage

def zero : Usage := ⟨0, 0, 0, 0⟩

structure Le (used budget : Usage) : Prop where
  reads : used.reads ≤ budget.reads
  polls : used.polls ≤ budget.polls
  writes : used.writes ≤ budget.writes
  millis : used.millis ≤ budget.millis

end Usage

/-- What a run does, and how long it waits. -/
def usage (dev : Device State) : Program Result → State → Usage
  | done _, _ => .zero
  | look polls bits addr rest, s =>
      let answer := dev.read bits addr s
      let used := (rest answer.1).usage dev answer.2
      match polls with
      | false => { used with reads := used.reads + 1 }
      | true => { used with polls := used.polls + 1 }
  | write bits addr value rest, s =>
      let answer := dev.write bits addr value s
      let used := (rest answer.1).usage dev answer.2
      { used with writes := used.writes + 1 }
  | delay millis rest, s =>
      let used := rest.usage dev (dev.delay millis s)
      { used with millis := used.millis + millis }

/-- No answers make the program use more than the budget. -/
def Within : Program Result → Usage → Prop
  | done _, _ => True
  | look false _ _ rest, budget => 0 < budget.reads ∧
      ∀ value, (rest value).Within { budget with reads := budget.reads - 1 }
  | look true _ _ rest, budget => 0 < budget.polls ∧
      ∀ value, (rest value).Within { budget with polls := budget.polls - 1 }
  | write _ _ _ rest, budget => 0 < budget.writes ∧
      ∀ taken, (rest taken).Within { budget with writes := budget.writes - 1 }
  | delay millis rest, budget => millis ≤ budget.millis ∧
      rest.Within { budget with millis := budget.millis - millis }

theorem Within.mono {program : Program Result} {budget more : Usage}
    (within : program.Within budget) (enough : budget.Le more) : program.Within more := by
  obtain ⟨reads, polled, writes, millis⟩ := enough
  induction program generalizing budget more with
  | done result => trivial
  | look polls bits addr rest ih =>
      cases polls with
      | false =>
          refine ⟨Nat.lt_of_lt_of_le within.1 reads, fun value => ?_⟩
          exact ih value (within.2 value) (Nat.sub_le_sub_right reads 1) polled writes millis
      | true =>
          refine ⟨Nat.lt_of_lt_of_le within.1 polled, fun value => ?_⟩
          exact ih value (within.2 value) reads (Nat.sub_le_sub_right polled 1) writes millis
  | write bits addr value rest ih =>
      refine ⟨Nat.lt_of_lt_of_le within.1 writes, fun taken => ?_⟩
      exact ih taken (within.2 taken) reads polled (Nat.sub_le_sub_right writes 1) millis
  | delay wait rest ih =>
      refine ⟨Nat.le_trans within.1 millis, ?_⟩
      exact ih within.2 reads polled writes (Nat.sub_le_sub_right millis wait)

/-- A budget is kept in every run. -/
theorem Within.usage_le {program : Program Result} {budget : Usage}
    (within : program.Within budget) (dev : Device State) (s : State) :
    (program.usage dev s).Le budget := by
  induction program generalizing budget s with
  | done result => exact ⟨Nat.zero_le _, Nat.zero_le _, Nat.zero_le _, Nat.zero_le _⟩
  | look polls bits addr rest ih =>
      cases polls with
      | false =>
          obtain ⟨reads, polled, writes, millis⟩ := ih _ (within.2 (dev.read bits addr s).1)
            (dev.read bits addr s).2
          exact ⟨Nat.add_le_of_le_sub within.1 reads, polled, writes, millis⟩
      | true =>
          obtain ⟨reads, polled, writes, millis⟩ := ih _ (within.2 (dev.read bits addr s).1)
            (dev.read bits addr s).2
          exact ⟨reads, Nat.add_le_of_le_sub within.1 polled, writes, millis⟩
  | write bits addr value rest ih =>
      obtain ⟨reads, polled, writes, millis⟩ := ih _ (within.2 (dev.write bits addr value s).1)
        (dev.write bits addr value s).2
      exact ⟨reads, polled, Nat.add_le_of_le_sub within.1 writes, millis⟩
  | delay wait rest ih =>
      obtain ⟨reads, polled, writes, millis⟩ := ih within.2 (dev.delay wait s)
      exact ⟨reads, polled, writes, Nat.add_le_of_le_sub within.1 millis⟩

end Program

end Smartchip.Foundation
